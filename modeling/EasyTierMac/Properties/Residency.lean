import EasyTierMac.Properties.OneCore

/-!
# Zero residency at exit

The teardown sees the core stopped and only later, after a sweep and a hook of up
to 30 s, exits; the no-owner timer looks at the lease and never at the core. A
core that another connection starts in between outlives the supervisor
(`core_outlives_exit`). As long as no core is started after a teardown has seen
the core stopped or after the timer has decided to exit, and the timer does not
decide while a core runs, every core is reaped at exit.
-/

namespace EasyTierMac.Supervisor

variable {env : Env} {s s' : Sys}

/-- In the teardown, and `stop(OwnerDrop)` has seen the core stopped. -/
def ConnPc.stopSeen : ConnPc → Bool
  | .stopHook r _ => r == .ownerDrop
  | .sweep .. | .join _ | .exit => true
  | _ => false

/-- Some thread will exit without looking at the core again. -/
def exitDecided (s : Sys) : Bool :=
  s.timer == .exiting || (List.range s.nConns).any fun c => (s.conns c).pc.stopSeen

/-- The step spawns a core although some thread will exit without looking at it, or
is the timer finding no owner while a core runs. -/
def strandsCore (s : Sys) : Action → Bool
  | .conn c (.spawn (.child _ _)) =>
    (s.conns c).pc == .startLock && s.core == .stopped && exitDecided s
  | .timer =>
    match s.timer with
    | .sleeping _ => !s.hasOwner && s.core != .stopped
    | _ => false
  | _ => false

/-- No error of `try_wait`, and no core is stranded. -/
def StrandsNone (s : Sys) (a : Action) : Prop := NoWaitError s a ∧ strandsCore s a = false

instance : ∀ s a, Decidable (StrandsNone s a) := fun _ _ => inferInstanceAs (Decidable (_ ∧ _))

/-- Who has seen the core stopped, or will exit, is right about it. -/
structure Quiesced (s : Sys) : Prop where
  conns : ∀ c, (s.conns c).pc.stopSeen = true → s.core = .stopped
  timer : s.timer = .exiting → s.core = .stopped
  exited : s.exited ≠ none → s.core = .stopped

/-- A connection comes to rely on the core being stopped by seeing it stopped. -/
theorem ConnMove.stopSeen_cases {c : ConnId} {ans : Answer} (h : ConnMove env s c ans s')
    (hpc' : (s'.conns c).pc.stopSeen = true) :
    s'.core = s.core ∧ (s.core = .stopped ∨ (s.conns c).pc.stopSeen = true) := by
  cases h with
  | stopIdle _ _ hcore => exact ⟨rfl, .inl hcore⟩
  | stopSeen _ _ hcore => exact ⟨rfl, .inl hcore⟩
  | sweep hpc hsw | swept hpc hsw =>
    obtain ⟨hooks, n, calls, rfl⟩ := sweepStep_eq hsw
    exact ⟨rfl, .inr (by rw [hpc]; rfl)⟩
  | @stopHook st r g hpc => cases r <;> simp_all [ConnPc.stopSeen, Sys.afterStopPc]
  | _ => simp_all [ConnPc.stopSeen]

theorem ConnMove.exited_cases {c : ConnId} {ans : Answer} (h : ConnMove env s c ans s') :
    s'.exited = s.exited ∨ (s.conns c).pc.stopSeen = true := by
  cases h with
  | exit hpc => exact .inr (by rw [hpc]; rfl)
  | sweep hpc hsw | swept hpc hsw => exact .inr (by rw [hpc]; rfl)
  | upHook | stopHook => exact .inl (by simp)
  | _ => exact .inl rfl

theorem ConnMove.timer_eq {c : ConnId} {ans : Answer} (h : ConnMove env s c ans s') :
    s'.timer = s.timer := by
  cases h with
  | sweep hpc hsw | swept hpc hsw =>
    obtain ⟨hooks, n, calls, rfl⟩ := sweepStep_eq hsw
    rfl
  | upHook | stopHook => simp
  | _ => rfl

/-- A thread that will exit without looking at the core again. -/
theorem exitDecided_of_conn (hA : Accepted s) {c : ConnId} (hc : (s.conns c).pc.stopSeen = true) :
    exitDecided s = true := by
  have hlt : c < s.nConns := by
    by_contra hle
    rw [hA.closed c (Nat.le_of_not_lt hle)] at hc
    cases hc
  exact Bool.or_eq_true_iff.mpr (.inr (List.any_eq_true.mpr ⟨c, List.mem_range.mpr hlt, hc⟩))

theorem exitDecided_of_timer (h : s.timer = .exiting) : exitDecided s = true :=
  Bool.or_eq_true_iff.mpr (.inl (beq_iff_eq.mpr h))

theorem Quiesced.init : Quiesced {} where
  conns _ h := by cases h
  timer h := by cases h
  exited h := absurd rfl h

namespace Quiesced

theorem conn (hQ : Quiesced s) (hA : Accepted s) (hex : s.exited = none) {c : ConnId}
    {ans : Answer} (hp : strandsCore s (.conn c ans) = false) (h : ConnMove env s c ans s') :
    Quiesced s' := by
  -- with a thread that relies on it, the core entry stays stopped
  have hkeep : s.core = .stopped → exitDecided s = true → s'.core = .stopped := by
    intro hcore hdec
    rcases h.core_cases with ⟨he, -⟩ | ⟨hpc, -, pid, port, rfl, -⟩ | ⟨-, run, -, hrun, -⟩
    · rw [he, hcore]
    · simp [strandsCore, hpc, hcore, hdec] at hp
    · rw [hcore] at hrun
      cases hrun
  refine ⟨fun d hd => ?_, fun ht => ?_, fun hne => ?_⟩
  · by_cases hdc : d = c
    · subst hdc
      obtain ⟨he, hseen⟩ := h.stopSeen_cases hd
      rcases hseen with hcore | hseen
      · rw [he, hcore]
      · exact hkeep (hQ.conns d hseen) (exitDecided_of_conn hA hseen)
    · rw [(h.of_ne hdc).1] at hd
      exact hkeep (hQ.conns d hd) (exitDecided_of_conn hA hd)
  · rw [h.timer_eq] at ht
    exact hkeep (hQ.timer ht) (exitDecided_of_timer ht)
  · rcases h.exited_cases with he | hseen
    · rw [he, hex] at hne
      exact absurd rfl hne
    · exact hkeep (hQ.conns c hseen) (exitDecided_of_conn hA hseen)

theorem monitor (hQ : Quiesced s) (hex : s.exited = none) {g : Gen} {ans : Answer}
    (h : MonMove env s g ans s') : Quiesced s' := by
  have hkeep : s.core = .stopped → s'.core = .stopped := by
    intro hcore
    cases h with
    | sweep hpc hsw | swept hpc hsw =>
      obtain ⟨hooks, n, calls, rfl⟩ := sweepStep_eq hsw
      exact hcore
    | _ => simp [hcore]
  refine ⟨fun d hd => ?_, fun ht => ?_, fun hne => ?_⟩
  · obtain ⟨out, he⟩ := h.conns_eq d
    rw [he] at hd
    exact hkeep (hQ.conns d hd)
  · rw [h.timer_eq] at ht
    exact hkeep (hQ.timer ht)
  · rw [h.exited_eq, hex] at hne
    exact absurd rfl hne

theorem other (hQ : Quiesced s) (hex : s.exited = none) {a : Action} (hp : strandsCore s a = false)
    (h : OtherMove env s a s') : Quiesced s' := by
  have hcore := h.core_eq
  refine ⟨fun d hd => ?_, fun ht => ?_, fun hne => ?_⟩
  · rw [hcore]
    rcases h.conns_eq with ⟨uid, hc, -⟩ | ⟨-, hc⟩
    · rw [hc] at hd
      by_cases hdn : d = s.nConns
      · rw [hdn, Function.update_self] at hd
        cases hd
      · rw [Function.update_of_ne hdn] at hd
        exact hQ.conns d hd
    · obtain ⟨sock, closed, he⟩ := hc d
      rw [he] at hd
      exact hQ.conns d hd
  · rw [hcore]
    rcases h.timer_cases with he | he | ⟨due, rfl, hdue, howner⟩
    · exact hQ.timer (he ▸ ht)
    · exact absurd ht he
    · simpa [strandsCore, hdue, Sys.hasOwner, howner] using hp
  · rw [hcore]
    rcases h.exited_cases with he | ht
    · rw [he, hex] at hne
      exact absurd rfl hne
    · exact hQ.timer ht

theorem step (hQ : Quiesced s) (hA : Accepted s) {a : Action} (hp : StrandsNone s a)
    (h : step env s a = some s') : Quiesced s' := by
  obtain ⟨hex, hm⟩ := step_move h
  cases hm with
  | conn hm => exact hQ.conn hA hex hp.2 hm
  | monitor hm => exact hQ.monitor hex hm
  | other hm => exact hQ.other hex hp.2 hm

theorem of_reachable (h : (supervisor env).ReachableBy StrandsNone s) : Quiesced s :=
  h.invariant .init fun hr hQ hp hs => hQ.step (.of_reachable hr.reachable) hp hs

end Quiesced

/-- **Zero residency at exit**, while no core is stranded: when the process has
exited, the core entry says stopped and every core ever spawned is reaped. -/
theorem zero_residency (h : (supervisor env).ReachableBy StrandsNone s) (hex : s.exited ≠ none) :
    s.core = .stopped ∧ ∀ g, (s.children g).life = .reaped := by
  have hcore := (Quiesced.of_reachable h).exited hex
  exact ⟨hcore, (coreTracked_of_reachable (h.mono fun _ _ hp => hp.1)).stopped hcore⟩

namespace Client

/-- The owner leaves with no core running; while its teardown goes on, another
connection takes the lease and starts a core, which is there when the teardown ends. -/
def lateStart : List Action :=
  [boot, connect 0 helloText, own 0,
    [.hangup 0, .conn 0 .done, .conn 0 .done, .conn 0 .done, .conn 0 .done, .conn 0 .failed],
    connect 1 helloText, own 1, start 1 7, [.conn 0 .done, .conn 0 .done]].flatten

/-- The owner starts a core and leaves; its teardown stops the core and exits. -/
def leaveRunning : List Action :=
  [boot, connect 0 helloText, own 0, start 0 7,
    [.hangup 0, .conn 0 .done, .conn 0 .done, .conn 0 .done, .conn 0 .done], perish 0,
    [.conn 0 .done, .conn 0 (.stat .absent), .conn 0 .failed, .conn 0 .done, .conn 0 .done]].flatten

end Client

/-- The supervisor exits while a core it started is running. -/
theorem core_outlives_exit : ∃ s, (supervisor Client.env).ReachableBy NoWaitError s ∧
    s.exited = some (.conn 0) ∧ s.core = .running ⟨7, 5000, false⟩ ∧
    (s.children 0).life = .alive := by
  obtain ⟨s, hs, hp⟩ := exists_reachableBy Client.env NoWaitError Client.lateStart
    (fun s => decide (s.exited = some (.conn 0) ∧ s.core = .running ⟨7, 5000, false⟩ ∧
      (s.children 0).life = .alive)) (by decide +kernel)
  exact ⟨s, hs, of_decide_eq_true hp⟩

theorem zero_residency_leave : ∃ s, (supervisor Client.env).ReachableBy StrandsNone s ∧
    s.nGen = 1 ∧ s.exited = some (.conn 0) ∧ s.core = .stopped ∧
    ∀ g, (s.children g).life = .reaped := by
  obtain ⟨s, hs, hp⟩ := exists_reachableBy Client.env StrandsNone Client.leaveRunning
    (fun s => decide (s.nGen = 1 ∧ s.exited = some (.conn 0))) (by decide +kernel)
  obtain ⟨hgen, hex⟩ := of_decide_eq_true hp
  exact ⟨s, hs, hgen, hex, zero_residency hs (by rw [hex]; simp)⟩

end EasyTierMac.Supervisor
