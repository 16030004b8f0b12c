import EasyTierMac.Bridge.Confirmation
import EasyTierMac.Bridge.Runs

/-!
# Takeover only on confirmation

The confirmation of a takeover is a `Notify`, which keeps its permit while nobody waits for
it. A `request_takeover` that is made when the driver is not paused on `busy` is remembered,
and confirms a later `busy` outcome at once (`takeover_unconfirmed`).

As long as no permit is stored when a `busy` reply is handled, the marks of a run are in
the order that `Phase` describes (`Paced`).
-/

namespace EasyTierMac.Bridge

open Transition (System)

variable {env : ClientEnv} {s s' : Client}

/-! ## The record of a run -/

/-- The next line is a `busy` reply to the hello. -/
def HandlesBusy (env : ClientEnv) (s : Client) : Prop :=
  s.driver = .readHello ∧ (step env s .poll).map Client.driver = some .busy

instance : Decidable (HandlesBusy env s) := inferInstanceAs (Decidable (_ ∧ _))

/-- No takeover permit is stored when a `busy` reply is handled. -/
def NoStalePermit (env : ClientEnv) (s : Client) (a : Action) : Prop :=
  a = .poll → HandlesBusy env s → s.takeover = false

instance : ∀ s a, Decidable (NoStalePermit env s a) := fun s a =>
  inferInstanceAs (Decidable (a = .poll → HandlesBusy env s → s.takeover = false))

/-- What a step adds to the record. -/
def marks (env : ClientEnv) (s : Client) : Action → List Mark
  | .takeover => [.attempt true]
  | .reconnect | .elapse => [.attempt s.nextTakeover]
  | .hello _ => [.hello s.nextTakeover]
  | .requestTakeover => [.request]
  | .poll => if HandlesBusy env s then [.busy] else []
  | _ => []

/-- The client with its record; the first attempt begins at once. -/
def recorded (env : ClientEnv) : System (Client × List Mark) Action :=
  (client env).recording [.attempt env.config.takeover] fun s a r => r ++ marks env s a

/-! ## The phase of the driver -/

/-- The phase that the driver is in. -/
def InPhase (s : Client) (p : Phase) : Prop :=
  match s.driver with
  | .connect | .sendHello => p = if s.nextTakeover then .taking else .free
  | .readHello => p = .free
  | .session | .writing _ => p = .free ∧ s.nextTakeover = false
  | .busy => p = if s.takeover then .confirmed else .paused
  | .pause _ => (p = .free ∨ p = .taking) ∧ s.nextTakeover = false
  | .stopped => True

/-- The marks so far are in order, and the driver is in the phase after them. -/
def Paced (s : Client) (r : List Mark) : Prop := ∃ p, Phase.after r = some p ∧ InPhase s p

/-- A call is in order at any time. -/
theorem Phase.next_request (p : Phase) : ∃ p', p.next .request = some p' := by
  cases p <;> exact ⟨_, rfl⟩

namespace Paced

variable {r : List Mark}

/-- Nothing is recorded, and the phase stays. -/
theorem keep (h : Paced s r) (hphase : ∀ p, InPhase s p → InPhase s' p) : Paced s' (r ++ []) := by
  obtain ⟨p, hp, hin⟩ := h
  exact ⟨p, (List.append_nil r).symm ▸ hp, hphase p hin⟩

/-- One mark is recorded. -/
theorem mark (h : Paced s r) {m : Mark}
    (hphase : ∀ p, InPhase s p → ∃ p', p.next m = some p' ∧ InPhase s' p') : Paced s' (r ++ [m]) := by
  obtain ⟨p, hp, hin⟩ := h
  obtain ⟨p', hnext, hin'⟩ := hphase p hin
  refine ⟨p', ?_, hin'⟩
  rw [Phase.after_concat, hp]
  exact hnext

end Paced

/-- Only a line that is a `busy` reply is recorded. -/
theorem marks_poll (hs : step env s .poll = some s') (hd : s'.driver ≠ .busy) :
    marks env s .poll = [] := by
  refine if_neg fun hbusy => hd ?_
  have hmap := hbusy.2
  rw [hs] at hmap
  exact Option.some.inj hmap

/-- A call is recorded. Only a client that is paused on `busy` gets into another phase. -/
theorem Paced.request {r : List Mark} (h : Paced s r) :
    Paced { s with takeover := true } (r ++ [.request]) := by
  refine h.mark fun p hin => ?_
  unfold InPhase at hin ⊢
  cases hd : s.driver with
  | busy =>
    simp only [hd] at hin
    subst hin
    cases s.takeover with
    | false => exact ⟨.confirmed, rfl, rfl⟩
    | true => exact ⟨.confirmed, rfl, rfl⟩
  | stopped =>
    obtain ⟨p', hp'⟩ := p.next_request
    exact ⟨p', hp', trivial⟩
  | connect | sendHello =>
    simp only [hd] at hin
    subst hin
    cases s.nextTakeover with
    | false => exact ⟨.free, rfl, rfl⟩
    | true => exact ⟨.taking, rfl, rfl⟩
  | readHello =>
    simp only [hd] at hin
    subst hin
    exact ⟨.free, rfl, rfl⟩
  | session | writing req =>
    simp only [hd] at hin
    obtain ⟨rfl, hnext⟩ := hin
    exact ⟨.free, rfl, rfl, hnext⟩
  | pause due =>
    simp only [hd] at hin
    obtain ⟨rfl | rfl, hnext⟩ := hin
    · exact ⟨.free, rfl, .inl rfl, hnext⟩
    · exact ⟨.taking, rfl, .inr rfl, hnext⟩

/-- The reply to the hello is handled. -/
theorem Paced.helloLine {r : List Mark} {l : List UInt8} {st : Stream} (h : Paced s r)
    (hp : NoStalePermit env s .poll) (hd : s.driver = .readHello)
    (hs : step env s .poll = some ((s.setStream st).helloLine env l)) :
    Paced ((s.setStream st).helloLine env l) (r ++ marks env s .poll) := by
  have hfree : ∀ p, InPhase s p → p = .free := fun p hin => by simpa [InPhase, hd] using hin
  rcases helloLine_cases env (s.setStream st) l with he | ⟨v, c, port, he⟩ | ⟨o, he⟩ | ⟨c, m, he⟩
  · rw [he] at hs ⊢
    rw [marks_poll hs (by simp)]
    exact h.keep fun p hin => ⟨.inl (hfree p hin), rfl⟩
  · rw [he] at hs ⊢
    rw [marks_poll hs (by simp)]
    exact h.keep fun p hin => ⟨hfree p hin, rfl⟩
  · have hbusy : HandlesBusy env s := ⟨hd, by rw [hs, he]; rfl⟩
    have htake : s.takeover = false := hp rfl hbusy
    rw [show marks env s .poll = [.busy] from if_pos hbusy, he]
    refine h.mark fun p hin => ⟨.paused, ?_, ?_⟩
    · rw [hfree p hin]
      rfl
    · simp [InPhase, htake]
  · rw [he] at hs ⊢
    rw [marks_poll hs (by simp)]
    exact h.keep fun p hin => ⟨.inl (hfree p hin), rfl⟩

theorem Paced.step {r : List Mark} {a : Action} (h : Paced s r) (hp : NoStalePermit env s a)
    (hs : step env s a = some s') : Paced s' (r ++ marks env s a) := by
  cases step_move hs with
  | connect hd =>
    refine h.keep fun p hin => ?_
    simpa [InPhase, hd] using hin
  | connectErr hd =>
    refine h.keep fun p hin => ⟨?_, rfl⟩
    have hin : p = if s.nextTakeover then .taking else .free := by simpa [InPhase, hd] using hin
    cases hnext : s.nextTakeover with
    | false => exact .inl (by simpa [hnext] using hin)
    | true => exact .inr (by simpa [hnext] using hin)
  -- the hello uses the flag up
  | hello hd | helloErr hd =>
    refine h.mark fun p hin => ⟨.free, ?_, ?_⟩
    · have hin : p = if s.nextTakeover then .taking else .free := by simpa [InPhase, hd] using hin
      rw [hin]
      cases s.nextTakeover with
      | false => rfl
      | true => rfl
    · simp [InPhase]
  | hold hd hpoll =>
    have hne : s.driver ≠ .busy := by
      rcases hd with hd | hd
      · simp [hd]
      · simp [hd]
    rw [marks_poll hs hne]
    exact h.keep fun p hin => hin
  | helloLine hd hpoll => exact h.helloLine hp hd hs
  | @sessionLine l st hd hpoll =>
    have hin : ∀ p, InPhase s p → p = .free ∧ s.nextTakeover = false := fun p hin => by
      simpa [InPhase, hd] using hin
    -- no line of a session is a mark, however it ends
    obtain ⟨log, he | he | ⟨ev, -, he⟩⟩ := sessionLine_cases env (s.setStream st) l
    · rw [he] at hs ⊢
      rw [marks_poll hs (by simp)]
      refine h.keep fun p hp => ⟨.inl (hin p hp).1, ?_⟩
      simpa using (hin p hp).2
    · rw [he] at hs ⊢
      rw [marks_poll hs (by simp [hd])]
      exact h.keep fun p hp => hp
    · obtain ⟨callers, pending, events, log', he', -⟩ := Client.dispatch_eq _ ev
      rw [he, he'] at hs ⊢
      rw [marks_poll hs (by simp [hd])]
      exact h.keep fun p hp => hp
  | helloReadErr hd =>
    refine h.keep fun p hin => ⟨.inl ?_, rfl⟩
    simpa [InPhase, hd] using hin
  | sessionReadErr hd | writeErr hd =>
    refine h.keep fun p hin => ?_
    have hin : p = .free ∧ s.nextTakeover = false := by simpa [InPhase, hd] using hin
    exact ⟨.inl hin.1, by simpa using hin.2⟩
  | recv hd =>
    refine h.keep fun p hin => ?_
    simpa [InPhase, hd] using hin
  | wrote hd =>
    refine h.keep fun p hin => ?_
    simpa [InPhase, hd] using hin
  | shutdown | shutdownSession =>
    refine h.keep fun p hin => ?_
    simp [InPhase]
  -- the only way from the prompt to a takeover: the permit of the user
  | takeover hd htake =>
    refine h.mark fun p hin => ⟨.taking, ?_, rfl⟩
    have hin : p = .confirmed := by simpa [InPhase, hd, htake] using hin
    rw [hin]
    rfl
  | reconnect hd | elapse hd =>
    refine h.mark fun p hin => ⟨.free, ?_, ?_⟩
    · have hin : (p = .free ∨ p = .taking) ∧ s.nextTakeover = false := by
        simpa [InPhase, hd] using hin
      rw [hin.2]
      rcases hin.1 with rfl | rfl
      · rfl
      · rfl
    · have hin : (p = .free ∨ p = .taking) ∧ s.nextTakeover = false := by
        simpa [InPhase, hd] using hin
      simp [InPhase, hin.2]
  | requestTakeover => exact h.request
  | _ => exact h.keep fun p hin => hin

theorem paced_of_reachable (hcfg : env.config.takeover = false) {r : List Mark}
    (h : (recorded env).ReachableBy (fun q a => NoStalePermit env q.1 a) (s, r)) : Paced s r := by
  refine h.invariant (I := fun q => Paced q.1 q.2) ⟨.free, ?_, ?_⟩ ?_
  · show Phase.after [.attempt env.config.takeover] = some .free
    rw [hcfg]
    rfl
  · simp [InPhase, recorded, System.recording, client, System.ofStep, Client.init, hcfg]
  · rintro ⟨s, r⟩ a ⟨s', r'⟩ - hP hp ⟨hs, hr⟩
    exact hr ▸ hP.step hp hs

/-- **Takeover only on confirmation**, in every run in which no takeover permit is stored
when a `busy` reply is handled. A hello that takes over belongs to the attempt after a
`busy` outcome, and somebody has called between the two; there are no more attempts that
take over than calls; and after a `busy` outcome there is no attempt before a call. -/
theorem takeover_on_confirmation (hcfg : env.config.takeover = false) {r : List Mark}
    (h : (recorded env).ReachableBy (fun q a => NoStalePermit env q.1 a) (s, r)) :
    (∀ pre post, r = pre ++ .hello true :: post →
      ∃ old calls late, pre = old ++ .busy :: (calls ++ .attempt true :: late) ∧
        Phase.Calls calls ∧ .request ∈ calls ∧ Phase.Calls late) ∧
      r.count (.attempt true) ≤ r.count .request ∧
      ∀ pre mid takeover post, r = pre ++ .busy :: (mid ++ .attempt takeover :: post) →
        .request ∈ mid := by
  obtain ⟨p, hp, -⟩ := paced_of_reachable hcfg h
  refine ⟨fun pre post hr => Phase.hello_confirmed hp hr, ?_,
    fun pre mid takeover post hr => Phase.attempt_confirmed hp hr⟩
  have hcount := Phase.count_attempt_le hp
  omega

namespace Trial

/-- Somebody calls for a takeover while the client connects, and then another client is the
owner. -/
def requestEarly : List Action :=
  [.requestTakeover] ++ attempt busyText ++ [.takeover, .connect true, .hello true]

/-- Another client is the owner, and then somebody calls for a takeover. -/
def requestOnBusy : List Action :=
  attempt busyText ++ [.requestTakeover, .takeover, .connect true, .hello true]

end Trial

/-- A run of the recorded client that evaluates. -/
theorem exists_recorded (env : ClientEnv) (P : Client → Action → Prop) [∀ s a, Decidable (P s a)]
    (l : List Action) (p : Client × List Mark → Bool)
    (h : (System.runBy (System.recordStep (step env) fun s a r => r ++ marks env s a)
      (fun q a => P q.1 a) (.init env, [.attempt env.config.takeover]) l).any p = true) :
    ∃ q, (recorded env).ReachableBy (fun q a => P q.1 a) q ∧ p q = true := by
  have hrec : recorded env = .ofStep (.init env, [.attempt env.config.takeover])
      (System.recordStep (step env) fun s a r => r ++ marks env s a) := System.recording_ofStep
  rw [hrec]
  exact System.exists_reachableBy_of_runBy h

/-- Nobody calls after the `busy` outcome, and the client takes over. -/
theorem takeover_unconfirmed : ∃ q,
    (recorded Trial.env).ReachableBy (fun _ _ => True) q ∧ Trial.env.config.takeover = false ∧
    q.2 = [.attempt false, .request, .hello false, .busy, .attempt true, .hello true] := by
  obtain ⟨q, hq, hp⟩ := exists_recorded Trial.env (fun _ _ => True) Trial.requestEarly
    (fun q => decide (q.2 =
      [.attempt false, .request, .hello false, .busy, .attempt true, .hello true]))
    (by decide +kernel)
  exact ⟨q, hq, rfl, of_decide_eq_true hp⟩

theorem takeover_on_confirmation_busy : ∃ q,
    (recorded Trial.env).ReachableBy (fun q a => NoStalePermit Trial.env q.1 a) q ∧
    q.2 = [.attempt false, .hello false, .busy, .request, .attempt true, .hello true] ∧
    q.2.count (.attempt true) ≤ q.2.count .request := by
  obtain ⟨q, hq, hp⟩ := exists_recorded Trial.env (NoStalePermit Trial.env) Trial.requestOnBusy
    (fun q => decide (q.2 =
      [.attempt false, .hello false, .busy, .request, .attempt true, .hello true]))
    (by decide +kernel)
  exact ⟨q, hq, of_decide_eq_true hp, (takeover_on_confirmation rfl hq).2.1⟩

end EasyTierMac.Bridge
