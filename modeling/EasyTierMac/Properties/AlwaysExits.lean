import EasyTierMac.Supervisor.Leaving
import EasyTierMac.Properties.Residency

/-!
# The supervisor can always exit

launchd starts the supervisor for its first client, and nobody ends it but itself: it exits in
the teardown of an owner, or when there is no owner after thirty seconds. So it must not come to
a state in which neither can happen any more: a lock that is not given back, a `stop` that waits
for a core that nobody watches, an owner slot without a thread behind it, or a free slot after
the timer has gone.

`can_exit` excludes all of these at once. From every reachable state, with any number of
connections in any phase, steps that bring nothing new lead to `exit(0)`.
-/

namespace EasyTierMac.Supervisor

open Transition.System (Leads)

variable {env : Env} {s s' : Sys}

/-! ## Who will exit -/

/-- A teardown goes on. -/
theorem ConnMove.gaveUp_keep {c : ConnId} {ans : Answer} (h : ConnMove env s c ans s')
    (hpc : (s.conns c).pc.gaveUp = true) : (s'.conns c).pc.gaveUp = true := by
  cases h with
  | sweep hpc' hsw | swept hpc' hsw =>
    obtain ⟨hooks, n, calls, rfl⟩ := sweepStep_eq hsw
    simp [ConnPc.gaveUp]
  | refill hpc' =>
    rcases hpc' with hpc' | hpc' <;> simp [hpc', ConnPc.gaveUp] at hpc
  | @stopIdle _ r _ hpc' | @stopHook _ r _ hpc' =>
    rw [hpc'] at hpc
    cases r with
    | ownerDrop => simp [Sys.afterStopPc, ConnPc.gaveUp]
    | _ => cases hpc
  | stopAgain | exit => exact hpc
  | stopMark _ hpc' | stopSeen _ hpc' =>
    rw [hpc'] at hpc
    simpa [ConnPc.gaveUp] using hpc
  | _ => simp_all [ConnPc.gaveUp]

/-- There is a timer once there are connections; and when it has gone, there is an owner or a
connection in its teardown. -/
structure Attended (s : Sys) : Prop where
  started : s.main = .serving → s.timer ≠ .notStarted
  attended : s.timer = .done → s.owner = none → ∃ c, (s.conns c).pc.gaveUp = true

/-- Whoever frees the slot goes on to its teardown. -/
theorem ConnMove.owner_freed {c : ConnId} {ans : Answer} (h : ConnMove env s c ans s')
    (ho : s'.owner = none) : s.owner = none ∨ (s'.conns c).pc.gaveUp = true := by
  cases h with
  | giveUp => exact .inr (by simp [ConnPc.gaveUp])
  | sweep hpc hsw | swept hpc hsw =>
    obtain ⟨hooks, n, calls, rfl⟩ := sweepStep_eq hsw
    exact .inl ho
  | accept | takeover => cases ho
  | upHook | stopHook => exact .inl (by simpa using ho)
  | _ => exact .inl ho

namespace Attended

theorem conn (hA : Attended s) {c : ConnId} {ans : Answer} (h : ConnMove env s c ans s') :
    Attended s' where
  started hm := by
    rw [h.timer_eq]
    rw [h.main_eq] at hm
    exact hA.started hm
  attended ht ho := by
    rw [h.timer_eq] at ht
    rcases h.owner_freed ho with ho | hpc
    · obtain ⟨d, hd⟩ := hA.attended ht ho
      refine ⟨d, ?_⟩
      by_cases hdc : d = c
      · subst hdc
        exact h.gaveUp_keep hd
      · rw [(h.of_ne hdc).1]
        exact hd
    · exact ⟨c, hpc⟩

theorem monitor (hA : Attended s) {g : Gen} {ans : Answer} (h : MonMove env s g ans s') :
    Attended s' where
  started hm := by
    rw [h.timer_eq]
    rw [h.main_eq] at hm
    exact hA.started hm
  attended ht ho := by
    rw [h.timer_eq] at ht
    rw [h.owner_eq] at ho
    obtain ⟨d, hd⟩ := hA.attended ht ho
    obtain ⟨out, he⟩ := h.conns_eq d
    exact ⟨d, by rw [he]; exact hd⟩

/-- The threads and the timer stay where they are, and the owner is the same. -/
theorem keep (hA : Attended s) (hmain : s'.main = s.main) (htimer : s'.timer = s.timer)
    (howner : s'.owner = s.owner) (hpc : ∀ c, (s'.conns c).pc = (s.conns c).pc) :
    Attended s' where
  started hm := by
    rw [htimer]
    rw [hmain] at hm
    exact hA.started hm
  attended ht ho := by
    rw [htimer] at ht
    rw [howner] at ho
    obtain ⟨d, hd⟩ := hA.attended ht ho
    exact ⟨d, by rw [hpc]; exact hd⟩

theorem other (hA : Attended s) (hacc : Accepted s) {a : Action} (h : OtherMove env s a s') :
    Attended s' := by
  have hnoTimer : ∀ {t : TimerPc}, t ≠ .notStarted → t ≠ .done →
      Attended { s with timer := t } := by
    intro t hn hd
    exact ⟨fun _ => hn, fun ht => absurd ht hd⟩
  cases h with
  | main hmain hsw =>
    obtain ⟨hooks, n, calls, rfl⟩ := sweepStep_eq hsw
    refine ⟨fun hm => (by cases hm), hA.attended⟩
  | serve hmain hsw =>
    obtain ⟨hooks, n, calls, rfl⟩ := sweepStep_eq hsw
    exact ⟨fun _ => TimerPc.noConfusion, fun ht => TimerPc.noConfusion ht⟩
  | timerOwner _ _ _ howner =>
    refine ⟨fun _ => TimerPc.noConfusion, fun _ ho => ?_⟩
    have ho : s.owner = none := ho
    rw [howner] at ho
    cases ho
  | timerNoOwner => exact hnoTimer TimerPc.noConfusion TimerPc.noConfusion
  | timerExit | hookLaunch | hookEnd | die | tick | procs => exact hA.keep rfl rfl rfl fun _ => rfl
  | @accept uid hmain =>
    refine ⟨hA.started, fun ht ho => ?_⟩
    obtain ⟨d, hd⟩ := hA.attended ht ho
    have hne : d ≠ s.nConns := by
      rintro rfl
      rw [hacc.closed _ (Nat.le_refl _)] at hd
      cases hd
    exact ⟨d, by simpa [hne] using hd⟩
  | @arrive c bytes hopen =>
    refine hA.keep rfl rfl rfl fun d => ?_
    by_cases hd : d = c
    · simp [hd]
    · simp [hd]
  | @hangup c =>
    refine hA.keep rfl rfl rfl fun d => ?_
    by_cases hd : d = c
    · simp [hd]
    · simp [hd]

theorem of_reachable (h : (supervisor env).Reachable s) : Attended s := by
  refine h.invariant (I := Attended) ?_ fun hr hA _ hs => ?_
  · exact ⟨fun hm => MainPc.noConfusion hm, fun ht => TimerPc.noConfusion ht⟩
  cases (step_move hs).2 with
  | conn hm => exact hA.conn hm
  | monitor hm => exact hA.monitor hm
  | other hm => exact hA.other (.of_reachable hr) hm

end Attended

/-! ## The way to exit -/

def Sys.mainLeft (env : Env) (s : Sys) : MainPc → Nat
  | .sweep sw => s.left env sw + 1
  | .serving => 0

/-- The activation-time sweep comes to its end. -/
theorem serving_leads : (supervisor env).Leads Winding (fun s => s.exited = none)
    fun s => s.exited = none ∧ s.main = .serving := by
  refine Leads.descend (fun s => s.mainLeft env s.main) fun n => ?_
  intro s hr hsn
  obtain ⟨hex, hn⟩ := hsn
  cases hmain : s.main with
  | serving => exact ⟨s, .refl, .inl ⟨hex, hmain⟩⟩
  | sweep sw =>
    rw [hmain] at hn
    have hn : s.left env sw + 1 = n := hn
    obtain ⟨ans, s₁, next, hst, hcalm, hless⟩ := sweep_gets_on env s sw
    have hex₁ : s₁.exited = none := by
      obtain ⟨hooks, m, calls, rfl⟩ := sweepStep_eq hst
      exact hex
    have hstep : ∀ s', s.mainStep env ans = some s' →
        (supervisor env).PathBy Winding s s' := by
      intro s' he
      refine .tail .refl (a := .main ans) hcalm ?_
      show step env s (.main ans) = some s'
      simp only [step, hex, Option.isSome_none, Bool.false_eq_true, if_false]
      exact he
    cases next with
    | none =>
      refine ⟨_, hstep _ (by simp only [Sys.mainStep, hmain, hst, Option.map_some]; rfl), .inl ?_⟩
      exact ⟨hex₁, rfl⟩
    | some sw' =>
      refine ⟨_, hstep _ (by simp only [Sys.mainStep, hmain, hst, Option.map_some]; rfl), .inr ?_⟩
      refine ⟨hex₁, ?_⟩
      have hless := hless sw' rfl
      show s₁.left env sw' + 1 < n
      omega

/-- With an owner, or a teardown that goes on, somebody will exit. -/
theorem attended_leads : (supervisor env).Leads Winding
    (fun s => s.exited = none ∧ (s.owner ≠ none ∨ ∃ c, (s.conns c).pc.gaveUp = true)) Exited := by
  rintro s hr ⟨hex, howner | ⟨c, hc⟩⟩
  · obtain ⟨o, ho⟩ := Option.ne_none_iff_exists'.mp howner
    obtain ⟨hst, hk, -⟩ := (owned_of_reachable hr).owner o.slot (Sys.leaseView_owner ho)
    exact holder_leads hst s hr ⟨⟨hex, rfl⟩, hk⟩
  · exact teardown_leads hc s hr ⟨hex, rfl⟩

/-- The timer goes off, and finds an owner or exits. -/
theorem timer_leads (due : Nat) : (supervisor env).Leads Winding
    (fun s => s.exited = none ∧ s.timer = .sleeping due) Exited := by
  have htick : (supervisor env).Leads Winding (fun s => s.exited = none ∧ s.timer = .sleeping due)
      fun s => s.exited = none ∧ s.timer = .sleeping due ∧ due ≤ s.now := by
    refine Leads.of_step fun s _ hst => ?_
    obtain ⟨hex, ht⟩ := hst
    refine ⟨.tick due, { s with now := s.now + due }, trivial, ?_, hex, ht, Nat.le_add_left _ _⟩
    show step env s (.tick due) = _
    simp only [step, hex, Option.isSome_none, Bool.false_eq_true, if_false]
  have hexit : (supervisor env).Leads Winding (fun s => s.exited = none ∧ s.timer = .exiting)
      Exited := by
    refine Leads.of_step fun s _ hst => ?_
    obtain ⟨hex, ht⟩ := hst
    refine ⟨.timer, s.exit .timer, trivial, ?_, by simp [Exited]⟩
    show step env s .timer = _
    simp only [step, hex, Option.isSome_none, Bool.false_eq_true, if_false, Sys.timerStep, ht]
  have hlook : (supervisor env).Leads Winding
      (fun s => (s.exited = none ∧ s.timer = .sleeping due ∧ due ≤ s.now) ∧ s.locked = none)
      fun s => (s.exited = none ∧ s.timer = .exiting) ∨
        s.exited = none ∧ (s.owner ≠ none ∨ ∃ c, (s.conns c).pc.gaveUp = true) := by
    refine Leads.of_step fun s _ hst => ?_
    obtain ⟨⟨hex, ht, hdue⟩, hlock⟩ := hst
    refine ⟨.timer, s.setTimer (if s.hasOwner then .done else .exiting), trivial, ?_, ?_⟩
    · show step env s .timer = _
      simp only [step, hex, Option.isSome_none, Bool.false_eq_true, if_false, Sys.timerStep, ht, hdue,
        if_true, Sys.lockSt, hlock, Option.isNone_none]
    · cases ho : s.owner with
      | none => exact .inl ⟨hex, by simp [Sys.hasOwner, ho]⟩
      | some o => exact .inr ⟨hex, .inl (by simp [ho])⟩
  refine htick.trans (lock_first (fun _ hs => hs.1) ?_ (hlook.trans (hexit.or attended_leads)))
  intro s s' hst hs
  obtain ⟨hex, ht, hdue⟩ := hs
  exact ⟨hst.exited.trans hex, hst.timer.trans ht, by rw [hst.now]; exact hdue⟩

/-- **The supervisor can always exit.** From every reachable state, steps that bring nothing new
lead to `exit(0)`: no peer connects or sends, no lease is granted, no core is spawned, no process
appears, and no read, write, wait or launch fails. -/
theorem can_exit (env : Env) (s : Sys) (h : (supervisor env).Reachable s) :
    ∃ s', (supervisor env).PathBy Winding s s' ∧ s'.exited ≠ none := by
  have hserving : (supervisor env).Leads Winding
      (fun s => s.exited = none ∧ s.main = .serving) Exited := by
    rintro s hr ⟨hex, hmain⟩
    have hA : Attended s := .of_reachable hr
    cases ht : s.timer with
    | notStarted => exact absurd ht (hA.started hmain)
    | sleeping due => exact timer_leads due s hr ⟨hex, ht⟩
    | exiting =>
      refine ⟨s.exit .timer, .tail .refl (a := .timer) trivial ?_, by simp [Exited]⟩
      show step env s .timer = _
      simp only [step, hex, Option.isSome_none, Bool.false_eq_true, if_false, Sys.timerStep, ht]
    | done =>
      refine attended_leads s hr ⟨hex, ?_⟩
      by_cases ho : s.owner = none
      · exact .inr (hA.attended ht ho)
      · exact .inl ho
  by_cases hex : s.exited = none
  · exact serving_leads.trans hserving s h hex
  · exact ⟨s, .refl, hex⟩

namespace Client

/-- The owner of a running core has sent `stop` and is taken over before it is read; the timer
has gone off long ago. -/
def takenOverRunning : List Action :=
  [boot, connect 0 helloText, own 0, start 0 7, [.tick NO_OWNER_TIMEOUT, .timer],
    [.arrive 0 (line stopText)], connect 1 takeoverText, takeOver 1].flatten

end Client

/-- A core runs for a displaced owner, and the timer has gone: the new owner's thread can exit. -/
theorem can_exit_taken_over : ∃ s s', (supervisor Client.env).Reachable s ∧
    (supervisor Client.env).PathBy Winding s s' ∧ s.core ≠ .stopped ∧ s.timer = .done ∧
    s.owner = some ⟨2, 1⟩ ∧ (s.conns 0).pc = .loop ∧ s'.exited ≠ none := by
  obtain ⟨s, hr, hp⟩ := exists_reachableBy Client.env (fun _ _ => True) Client.takenOverRunning
    (fun s => decide (s.core ≠ .stopped ∧ s.timer = .done ∧ s.owner = some (⟨2, 1⟩ : OwnerSlot) ∧
      (s.conns 0).pc = .loop)) (by decide +kernel)
  obtain ⟨hcore, htimer, howner, hpc⟩ := of_decide_eq_true hp
  obtain ⟨s', hpath, hex⟩ := can_exit Client.env s hr
  exact ⟨s, s', hr, hpath, hcore, htimer, howner, hpc, hex⟩

end EasyTierMac.Supervisor
