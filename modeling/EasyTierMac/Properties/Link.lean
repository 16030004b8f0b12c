import EasyTierMac.Bridge.Link
import EasyTierMac.Bridge.Runs

/-!
# What the app can rely on about the connection

The app follows the client by its events. `events_announced` says that it can: the stream of
any run is a sequence of sessions, each with one `connected` at its beginning and one
`disconnected` at its end, news of the core and of the lease inside, and `busy` and `error`
anywhere. The last announcement is right: the driver is in `run_session` if and only if a
session is announced, and `is_connected` says the same.

`pause_doubles` is about the time in between. With the record of the pauses that have ended
since the last session (`Attempts`), the next pause lasts `min (initial · 2ⁿ) max` and not a
millisecond less, unless `reconnect` is requested; a session starts the count anew.
-/

namespace EasyTierMac.Bridge

open Transition (System)

variable {env : ClientEnv} {s s' : Client} {a : Action}

/-! ## The stream of events -/

theorem announced_append {events evs : List SupervisorEvent} {up : Bool}
    (h : announced events = some up) : announced (events ++ evs) = evs.foldlM announce up := by
  unfold announced at h ⊢
  rw [List.foldlM_append, h]
  rfl

theorem announced_of_reachable (h : (client env).Reachable s) :
    announced s.events = some s.driver.inSession ∧ s.connected = s.driver.inSession := by
  refine h.invariant (I := fun s => announced s.events = some s.driver.inSession ∧
    s.connected = s.driver.inSession) ⟨rfl, rfl⟩ ?_
  intro s a s' _ hinv _ hs
  obtain ⟨hev, hc⟩ := hinv
  have hmove := step_move hs
  obtain ⟨evs, he, hreads⟩ := hmove.reads
  refine ⟨?_, hmove.connected hc⟩
  rw [he, announced_append hev]
  exact hreads

/-- **The stream of events is a sequence of sessions, and the last announcement is right.** A
driver that has returned announces nothing more. -/
theorem events_announced (env : ClientEnv) (s : Client) (h : (client env).Reachable s) :
    announced s.events = some s.driver.inSession ∧ s.connected = s.driver.inSession ∧
      (s.driver = .stopped → announced s.events = some false ∧
        ∀ s', (client env).PathBy (fun _ _ => True) s s' → s'.driver = .stopped ∧ s'.events = s.events) := by
  obtain ⟨hev, hc⟩ := announced_of_reachable h
  refine ⟨hev, hc, fun hd => ⟨?_, fun s' hpath => ?_⟩⟩
  · rw [hev, hd]
    rfl
  · induction hpath with
    | refl => exact ⟨hd, rfl⟩
    | tail _ _ hs ih =>
      obtain ⟨hd₁, he₁⟩ := ih
      obtain ⟨hd₂, he₂⟩ := (step_move hs).stopped hd₁
      exact ⟨hd₂, he₂.trans he₁⟩

/-- The client connects, and is shut down. -/
theorem events_announced_shutdown : ∃ s, (client Trial.env).Reachable s ∧ s.events.length = 2 ∧
    announced s.events = some false ∧ s.connected = false := by
  obtain ⟨s, hr, hd⟩ := exists_reachableBy Trial.env (fun _ _ => True)
    (Trial.connected ++ [.requestShutdown, .shutdown])
    (fun s => decide (s.driver = .stopped ∧ s.events.length = 2)) (by decide +kernel)
  obtain ⟨hstopped, hlen⟩ := of_decide_eq_true hd
  obtain ⟨-, hc, hstop⟩ := events_announced Trial.env s hr
  refine ⟨s, hr, hlen, (hstop hstopped).1, ?_⟩
  rw [hc, hstopped]
  rfl

/-! ## The pauses -/

/-- What a run has seen of pauses. -/
structure Attempts where
  /-- Pauses that have ended since the last session, or since the start. -/
  retries : Nat := 0
  /-- When the last pause began. -/
  since : Nat := 0
  deriving DecidableEq, Repr

def noteAttempt (env : ClientEnv) (s : Client) (a : Action) (r : Attempts) : Attempts :=
  match step env s a with
  | some s' => {
      retries :=
        if s'.driver.inSession then 0
        else if s.driver.paused ∧ s'.driver = .connect then r.retries + 1
        else r.retries
      since := if s'.driver.paused ∧ ¬ s.driver.paused then s.now else r.since }
  | none => r

/-- The client with the record of its pauses. -/
def pacing (env : ClientEnv) : System (Client × Attempts) Action :=
  (client env).recording {} (noteAttempt env)

/-- The length of a pause after `n` others. -/
def SupervisorConfig.delay (c : SupervisorConfig) (n : Nat) : Nat :=
  if n = 0 then c.initialBackoff else min (c.initialBackoff * 2 ^ n) c.maxBackoff

/-- Doubling step by step, with the bound at every step, is doubling at once. -/
theorem SupervisorConfig.delay_succ (c : SupervisorConfig) (n : Nat) :
    c.delay (n + 1) = min (c.delay n * 2) c.maxBackoff := by
  unfold delay
  rw [if_neg (Nat.succ_ne_zero n)]
  split
  · next hzero =>
    rw [hzero]
    rfl
  · rw [Nat.pow_succ, ← Nat.mul_assoc]
    omega

/-- The record and the driver agree. -/
structure Pacing (env : ClientEnv) (s : Client) (r : Attempts) : Prop where
  backoff : s.backoff = env.config.delay r.retries
  fresh : s.driver.inSession = true → r.retries = 0
  due : ∀ due, s.driver = .pause due → due = r.since + s.backoff ∧ r.since ≤ s.now

theorem Pacing.step {r : Attempts} (h : Pacing env s r) (hs : step env s a = some s') :
    Pacing env s' (noteAttempt env s a r) := by
  unfold noteAttempt
  rw [hs]
  dsimp only
  cases (step_move hs).pauses with
  | same hdue hno hin hb hnow =>
    have hretry : ¬ (s.driver.paused = true ∧ s'.driver = .connect) := by
      rintro ⟨hp, hc⟩
      rw [hno hc] at hp
      cases hp
    have hsince : ¬ (s'.driver.paused = true ∧ ¬ s.driver.paused = true) := by
      rintro ⟨hp, hnp⟩
      cases hd : s'.driver with
      | pause due =>
        rw [hdue due hd] at hnp
        exact hnp rfl
      | _ =>
        rw [hd] at hp
        cases hp
    rw [if_neg hretry, if_neg hsince]
    refine ⟨?_, ?_, ?_⟩
    · rw [hb, h.backoff]
      split
      · next hs' => rw [h.fresh (hin hs')]
      · rfl
    · intro hs'
      exact if_pos hs'
    · intro due hd
      obtain ⟨he, hle⟩ := h.due due (hdue due hd)
      rw [hb]
      exact ⟨he, Nat.le_trans hle hnow⟩
  | begins hp hd hb hnow =>
    have hout : s'.driver.inSession = false := by
      rw [hd]
      rfl
    have hpaused : s'.driver.paused = true := by
      rw [hd]
      rfl
    rw [hout, hpaused, hp, hd]
    refine ⟨?_, fun hs' => ?_, ?_⟩
    · rw [hb, h.backoff]
      simp
    · rw [hout] at hs'
      cases hs'
    · intro due hdue
      rw [hd] at hdue
      cases hdue
      rw [hb, hnow]
      simp
  | ends hp hd hb =>
    have hout : s'.driver.inSession = false := by
      rw [hd]
      rfl
    rw [hout, hd, hp]
    refine ⟨?_, fun hs' => ?_, ?_⟩
    · rw [hb, h.backoff, ← SupervisorConfig.delay_succ]
      simp
    · rw [hout] at hs'
      cases hs'
    · intro due hdue
      rw [hd] at hdue
      cases hdue
  | session hp hd hb =>
    have hin : s'.driver.inSession = true := by
      rw [hd]
      rfl
    rw [hin]
    refine ⟨?_, fun _ => rfl, ?_⟩
    · rw [hb]
      rfl
    · intro due hdue
      rw [hd] at hdue
      cases hdue

theorem pacing_of_reachable {p : Client × Attempts} (h : (pacing env).Reachable p) :
    Pacing env p.1 p.2 := by
  refine h.invariant (I := fun p => Pacing env p.1 p.2) ⟨rfl, fun _ => rfl, fun due hd => by cases hd⟩ ?_
  intro p a p' _ hp _ hs
  rw [hs.2]
  exact hp.step hs.1

/-- **Each pause is twice as long as the one before, up to the bound.** The `n`-th pause after a
session ends `delay n` after its beginning: before that the driver stays, unless `reconnect` is
requested, and from then on the next attempt can begin. -/
theorem pause_doubles (env : ClientEnv) (s : Client) (r : Attempts)
    (h : (pacing env).Reachable (s, r)) :
    s.backoff = env.config.delay r.retries ∧
      ∀ due, s.driver = .pause due → due = r.since + env.config.delay r.retries ∧ r.since ≤ s.now ∧
        (s.now < r.since + env.config.delay r.retries → ∀ a s', step env s a = some s' →
          s'.driver = .pause due ∨ a = .reconnect ∧ s.reconnect = true ∨ a = .shutdown) ∧
        (r.since + env.config.delay r.retries ≤ s.now →
          ∃ s', step env s .elapse = some s' ∧ s'.driver = .connect ∧
            s'.backoff = env.config.delay (r.retries + 1)) := by
  have hp : Pacing env s r := pacing_of_reachable h
  refine ⟨hp.backoff, fun due hd => ?_⟩
  obtain ⟨he, hle⟩ := hp.due due hd
  rw [hp.backoff] at he
  refine ⟨he, hle, ?_, ?_⟩
  · intro hlt a s' hs
    rw [← he] at hlt
    cases step_move hs with
    | call | refused | send | receive | lost | timeout | requestShutdown | requestTakeover
    | requestReconnect | arrive | hangup | tick => exact .inl hd
    | hold hpc | fill hpc =>
      rw [hd] at hpc
      rcases hpc with hpc | hpc <;> cases hpc
    | connect hpc | connectErr hpc | hello hpc | helloErr hpc | helloReadErr hpc | takeover hpc
    | recv hpc | recvBusy hpc | wrote hpc | helloLine hpc | sessionLine hpc | sessionReadErr hpc
    | writeErr hpc =>
      rw [hd] at hpc
      cases hpc
    | reconnect _ hreq => exact .inr (.inl ⟨rfl, hreq⟩)
    | elapse hpc hnow =>
      rw [hd] at hpc
      cases hpc
      omega
    | shutdown | shutdownSession => exact .inr (.inr rfl)
  · intro hge
    rw [← he] at hge
    refine ⟨s.retry env, ?_, rfl, ?_⟩
    · simp only [step, Client.elapseStep, hd, hge, if_true]
    · rw [SupervisorConfig.delay_succ, ← hp.backoff]
      rfl

/-- The socket is not there: after two pauses the third lasts four seconds. -/
theorem pause_doubles_third : ∃ s r, (pacing Trial.env).Reachable (s, r) ∧
    s.driver = .pause 7000 ∧ r = ⟨2, 3000⟩ ∧ s.backoff = 4000 := by
  have hrec : pacing Trial.env = .ofStep (.init Trial.env, {})
      (System.recordStep (step Trial.env) (noteAttempt Trial.env)) := System.recording_ofStep
  have hrun : (System.runBy (System.recordStep (step Trial.env) (noteAttempt Trial.env))
      (fun _ _ => True) (.init Trial.env, {}) [.connect false, .tick 1000, .elapse, .connect false,
        .tick 2000, .elapse, .connect false]).any
      (fun p => decide (p.1.driver = .pause 7000 ∧ p.2 = ⟨2, 3000⟩)) = true := by
    decide +kernel
  obtain ⟨⟨s, r⟩, hr, hd⟩ := System.exists_reachableBy_of_runBy hrun
  rw [← hrec] at hr
  obtain ⟨hpause, hrec⟩ := of_decide_eq_true hd
  have hrec' : r = ⟨2, 3000⟩ := hrec
  subst hrec'
  obtain ⟨hb, -⟩ := pause_doubles Trial.env s ⟨2, 3000⟩ hr
  exact ⟨s, _, hr, hpause, rfl, hb⟩

end EasyTierMac.Bridge
