import EasyTierMac.App.Kinds

/-!
# One task of a kind at a time, and three attempts in a row

Tasks overlap freely: a `connect()` can succeed while a restart task sleeps, a kick can arrive
while both are suspended. `single_flight` is what holds in every run nevertheless: one polling
task, one restart task, one installation and one uninstallation at a time.

`three_attempts` follows the replies instead of the counter. `noteFailure` counts the attempts
of restart tasks that have failed in a row; the app makes no fourth one, and a restart task that
gives up has seen three.
-/

namespace EasyTierMac.App

open Transition (System)

/-! ## Runs -/

theorem SingleFlight.step {s s' : State} {a : Action} (h : SingleFlight s.main)
    (hw : s.main.WellFormed) (hs : step s a = some s') : SingleFlight s'.main := by
  have ht : s.main.Turn none none [] s.main := .user
  have hpoll : ∀ i, s.main.heap.pollTask = some i →
      s.main.heap.pollTask = some i ∨ i ∈ s.main.cancelled := fun i hi => .inl hi
  have hplain {c : Code} (hc : c = .connect .start ∨ c = .disconnect .start ∨
      c = .revalidate .start ∨ c = .refresh .start ∨ c = .install .start ∨ c = .uninstall .start)
      (k : Kind) : c.is k = false := by
    rcases hc with rfl | rfl | rfl | rfl | rfl | rfl
    all_goals cases k <;> rfl
  have hspawn {c : Code} (hc : ∀ k, c.is k = false) : SingleFlight (s.main.spawn c) := by
    refine h.user ht.spawn (fun c' hc' => ?_) sameWork_refl rfl hpoll fun _ hi => hi
    rw [List.mem_singleton.mp hc']
    exact hc
  cases a with
  | toggle =>
    cases hs
    show SingleFlight (toggleConnection s.main)
    unfold toggleConnection
    split
    · exact hspawn (hplain (by simp))
    · exact hspawn (hplain (by simp))
    · exact h
    · exact h
  | becomeActive =>
    cases hs
    refine h.user ht.spawn.spawn (fun c hc => ?_) sameWork_refl rfl hpoll fun _ hi => hi
    simp only [List.nil_append, List.cons_append, List.mem_cons, List.not_mem_nil, or_false] at hc
    rcases hc with rfl | rfl
    · exact hplain (by simp)
    · exact hplain (by simp)
  | openSettings | install | uninstall =>
    cases hs
    exact hspawn (hplain (by simp))
  | setAutoRestart on | setAutoConnectOnLaunch on | launchAtLoginFailed description =>
    cases hs
    simp only [State.setMain]
    exact h.user ht.modify (by simp) ⟨rfl, rfl, .inl rfl⟩ rfl hpoll fun _ hi => hi
  | answerPrompt takeover =>
    simp only [App.step, State.closePrompt] at hs
    split at hs
    · cases hs
      cases takeover with
      | true => exact h.user ht.post (by simp) sameWork_refl rfl hpoll fun _ hi => hi
      | false => exact h
    · cases hs
  | deliver ev =>
    cases hs
    exact h
  | handle =>
    simp only [App.step, State.handleNext] at hs
    split at hs
    · split at hs
      · cases hs
      · cases hs
        exact h.handle_turn hw
    · cases hs
  | perform r =>
    obtain ⟨m, hm, rfl⟩ := Option.map_eq_some_iff.mp hs
    unfold App.perform at hm
    split at hm
    · next id queue hq =>
      obtain ⟨c, hc, hm⟩ := Option.bind_eq_some_iff.mp hm
      obtain ⟨c', hc', rfl⟩ := Option.map_eq_some_iff.mp hm
      have hmem := Actor.mem_of_code? hc
      have ht' : s.main.Turn (some id) (some c) [] { s.main with queue := queue } :=
        (Actor.Turn.start hw hmem).of_eq rfl rfl
      have hkind : ∀ k, c'.is k = c.is k := by
        unfold Code.answered at hc'
        split at hc'
        all_goals first
          | cases hc'; intro k; cases k <;> rfl
          | cases hc'
      exact h.stay hw hmem (ht'.suspend (hw.lt _ hmem)) hkind sameWork_refl rfl rfl fun _ hi => hi
    · cases hm
  | performPosted =>
    obtain ⟨m, hm, rfl⟩ := Option.map_eq_some_iff.mp hs
    unfold App.performPosted at hm
    split at hm
    · cases hm
      exact h.user (ht.of_eq rfl rfl) (by simp) sameWork_refl rfl hpoll fun _ hi => hi
    · cases hm
  | run id file now =>
    obtain ⟨m, hm, rfl⟩ := Option.map_eq_some_iff.mp hs
    obtain ⟨c, hc, hm⟩ := Option.bind_eq_some_iff.mp hm
    exact h.turn_single hw hc hm

theorem singleFlight_start (d : Defaults) : SingleFlight (start d).main := by
  have hno (k : Kind) (i : Nat) : ¬ Actor.Holds (Code.is k) (start d).main i := by
    rintro ⟨c, hmem, hk⟩
    simp only [start, onBecomeActive, Actor.spawn, List.nil_append, List.cons_append,
      List.mem_cons, List.not_mem_nil, or_false, Task.mk.injEq] at hmem
    rcases hmem with ⟨-, rfl⟩ | ⟨-, rfl⟩ <;> cases k <;> cases hk
  have hidle (k : Kind) : ¬ ∃ i, Actor.Holds (Code.is k) (start d).main i := by
    intro hi
    obtain ⟨i, hi⟩ := hi
    exact hno k i hi
  constructor
  · exact fun i hi => absurd hi (hno _ i)
  · exact fun i hi => absurd hi (hno _ i)
  · exact ⟨fun i _ hi => absurd hi (hno _ i), fun hf => Bool.noConfusion hf, fun hi => absurd hi (hidle _)⟩
  · exact ⟨fun i _ hi => absurd hi (hno _ i), fun hf => Bool.noConfusion hf, fun hi => absurd hi (hidle _)⟩
  · exact fun i hi => absurd hi (hno _ i)
  · exact Nat.zero_le _

/-- **One at a time, in every run.** -/
theorem single_flight (d : Defaults) (s : State) (h : (app d).Reachable s) :
    SingleFlight s.main := by
  have hinv : SingleFlight s.main ∧ s.main.WellFormed :=
    h.invariant (I := fun s => SingleFlight s.main ∧ s.main.WellFormed)
      ⟨singleFlight_start d, start_wellFormed d⟩ fun _ hinv _ hs =>
        ⟨hinv.1.step hinv.2 hs, (step_move hinv.2 hs).wellFormed hinv.2⟩
  exact hinv.1

/-! ## The attempts of a run -/

/-- The attempts that have failed in a row, after the turn of the task `id`, which stands at
`c`. -/
def failuresAfter (s : Main) (id : Nat) (c : Code) (n : Nat) : Nat :=
  match c with
  | .restart _ (.connected (some _)) => if s.isCancelled id then n else n + 1
  | .restart _ (.connected none) => if s.isCancelled id then n else 0
  | .connect (.connected _ none) | .disconnect .disconnected => 0
  | _ => n

/-- A success and the end of `disconnect()` begin a new row. -/
def noteFailure (s : State) (a : Action) (n : Nat) : Nat :=
  match a with
  | .run id _ _ => ((s.main.code? id).map fun c => failuresAfter s.main id c n).getD n
  | _ => n

/-- The app with the number of attempts that have failed in a row. -/
def attempting (d : Defaults) : System (State × Nat) Action := (app d).recording 0 noteFailure

section

variable {s m : Main} {id : Nat} {file : Option String} {now : ℚ}

theorem restartLoop_failures {toml : String} :
    (restartLoop s id toml).heap.restartFailures = s.heap.restartFailures := by
  unfold restartLoop
  dsimp only
  split
  · rfl
  · rfl

theorem refresh_failures {pc : RefreshAt} (h : refreshSupervisorStatus s id pc = some m) :
    m.heap.restartFailures = s.heap.restartFailures := by
  cases pc with
  | start =>
    cases h
    rfl
  | answered status => cases status <;> cases h <;> rfl
  | status => cases h

theorem restart_failures {toml : String} {pc : RestartAt} (h : restart s id toml pc = some m) :
    m.heap.restartFailures = failuresAfter s id (.restart toml pc) s.heap.restartFailures := by
  cases pc with
  | start =>
    cases h
    exact restartLoop_failures
  | sleep =>
    simp only [restart] at h
    split at h
    · cases h
      rfl
    · cases h
      rfl
  | connected err =>
    simp only [restart] at h
    split at h
    · next hcan =>
      cases h
      cases err with
      | none => exact (if_pos hcan).symm
      | some err => exact (if_pos hcan).symm
    · next hcan =>
      cases err with
      | none =>
        cases h
        exact (if_neg hcan).symm
      | some err =>
        cases h
        exact restartLoop_failures.trans (if_neg hcan).symm
  | connect => cases h

/-- The counter counts the row. -/
theorem turn_failures {c : Code} (h : turn s id file now c = some m) :
    m.heap.restartFailures = failuresAfter s id c s.heap.restartFailures := by
  cases c with
  | connect pc =>
    cases pc with
    | start =>
      simp only [turn, connect] at h
      split at h
      · cases file <;> cases h <;> rfl
      · cases h
        rfl
    | validated text v =>
      simp only [turn, connect] at h
      split at h
      · cases h
        rfl
      · cases h
        rfl
    | connected text err => cases err <;> cases h <;> rfl
    | validate text => cases h
    | connect text => cases h
  | disconnect pc =>
    cases pc with
    | start =>
      simp only [turn, disconnect] at h
      split at h
      · cases h
        rfl
      · cases h
        rfl
    | disconnected =>
      cases h
      rfl
    | disconnect => cases h
  | revalidate pc =>
    cases pc with
    | start => cases file <;> cases h <;> rfl
    | validated text v =>
      simp only [turn, revalidate] at h
      split at h
      · cases h
        rfl
      · cases h
        rfl
    | validate text => cases h
  | refresh pc => exact refresh_failures h
  | install pc =>
    cases pc with
    | start =>
      simp only [turn, installSupervisor] at h
      split at h
      · cases h
        rfl
      · cases h
        rfl
    | installed err => cases err <;> cases h <;> rfl
    | install => cases h
  | uninstall pc =>
    cases pc with
    | start =>
      simp only [turn, uninstallSupervisor] at h
      split at h
      · cases h
        rfl
      · cases h
        rfl
    | installed err => cases err <;> cases h <;> rfl
    | install => cases h
  | restart toml pc => exact restart_failures h
  | poll pc =>
    cases pc with
    | start | sleep =>
      simp only [turn, poll] at h
      split at h
      · cases h
        rfl
      · split at h
        · cases h
          rfl
        · cases h
          rfl
    | answered env =>
      simp only [turn, poll] at h
      split at h
      · cases h
        exact polled_restartFailures ..
      · cases h
        rfl
    | status => cases h

end

/-- No event touches the counter. -/
theorem handle_failures {s : Main} (ev : BridgeEvent) :
    (handle s ev).heap.restartFailures = s.heap.restartFailures := by
  cases ev with
  | connected version core port =>
    simp only [handle, startupRestoreIfNeeded]
    split
    · rfl
    · split <;> rfl
  | coreExited code signal =>
    simp only [handle, handleCoreExit]
    split
    · split <;> rfl
    · rfl
  | disconnected | kicked | error _ _ | coreStarted _ _ | coreStopped _ | busy _ | unknown _
  | malformed _ => rfl

/-- In every recorded run the row is what `restartFailures` says. -/
theorem step_failures {s s' : State} {a : Action} (hs : step s a = some s') :
    s'.main.heap.restartFailures = noteFailure s a s.main.heap.restartFailures := by
  cases a with
  | toggle =>
    cases hs
    show (toggleConnection s.main).heap.restartFailures = _
    unfold toggleConnection
    split <;> rfl
  | becomeActive | openSettings | install | uninstall | setAutoRestart on
  | setAutoConnectOnLaunch on | launchAtLoginFailed description | deliver ev =>
    cases hs
    rfl
  | answerPrompt takeover =>
    simp only [step, State.closePrompt] at hs
    split at hs
    · cases hs
      cases takeover <;> rfl
    · cases hs
  | handle =>
    simp only [step, State.handleNext] at hs
    split at hs
    · split at hs
      · cases hs
      · cases hs
        exact handle_failures _
    · cases hs
  | perform r =>
    obtain ⟨m, hm, rfl⟩ := Option.map_eq_some_iff.mp hs
    unfold App.perform at hm
    split at hm
    · obtain ⟨c, -, hm⟩ := Option.bind_eq_some_iff.mp hm
      obtain ⟨c', -, rfl⟩ := Option.map_eq_some_iff.mp hm
      rfl
    · cases hm
  | performPosted =>
    obtain ⟨m, hm, rfl⟩ := Option.map_eq_some_iff.mp hs
    unfold App.performPosted at hm
    split at hm
    · cases hm
      rfl
    · cases hm
  | run id file now =>
    obtain ⟨m, hm, rfl⟩ := Option.map_eq_some_iff.mp hs
    obtain ⟨c, hc, hm⟩ := Option.bind_eq_some_iff.mp hm
    show m.heap.restartFailures = _
    have hnote : noteFailure s (.run id file now) s.main.heap.restartFailures =
        failuresAfter s.main id c s.main.heap.restartFailures := by
      show ((s.main.code? id).map fun c => failuresAfter s.main id c _).getD _ = _
      rw [hc]
      rfl
    rw [hnote]
    exact turn_failures hm

theorem attempting_failures {d : Defaults} {p : State × Nat} (h : (attempting d).Reachable p) :
    p.2 = p.1.main.heap.restartFailures :=
  h.invariant (I := fun p => p.2 = p.1.main.heap.restartFailures) rfl fun {p a p'} _ hp _ hs => by
    rw [hs.2, step_failures hs.1, hp]

/-- **Three attempts in a row.** In every run at most three attempts of restart tasks fail in a
row. A restart task that has announced an attempt and has not been cancelled has one left; when
the attempt fails, it goes back to sleep, or, after the third one, ends and gives the
connection up. -/
theorem three_attempts (d : Defaults) (s : State) (n : Nat) (h : (attempting d).Reachable (s, n)) :
    n ≤ 3 ∧ (∀ t ∈ s.main.tasks, t.code.is .retry = true → t.id ∉ s.main.cancelled → n < 3) ∧
    ∀ id toml err file now s', s.main.code? id = some (.restart toml (.connected (some err))) →
      id ∉ s.main.cancelled → step s (.run id file now) = some s' →
      (n + 1 < 3 ∧ ⟨id, .restart toml .sleep⟩ ∈ s'.main.tasks ∧
        s'.main.heap.connectionState = s.main.heap.connectionState) ∨
      (n + 1 = 3 ∧ (∀ t ∈ s'.main.tasks, t.id ≠ id) ∧
        s'.main.heap.connectionState = .disconnected) := by
  have hreach : (app d).Reachable s := System.ReachableBy.of_recording (P := fun _ _ => True) h
  have hsingle := single_flight d s hreach
  have hw := reachable_wellFormed hreach
  have hn : n = s.main.heap.restartFailures := attempting_failures h
  subst hn
  refine ⟨hsingle.failures, ?_, ?_⟩
  · intro t ht hretry hlive
    exact hsingle.attempts t.id ⟨t.code, ht, hretry⟩ hlive
  · intro id toml err file now s' hc hlive hs
    have hmem := Actor.mem_of_code? hc
    have hlt := hw.lt _ hmem
    have hleft : s.main.heap.restartFailures < maxAutoRestart :=
      hsingle.attempts id ⟨_, hmem, rfl⟩ hlive
    have hcan : s.main.isCancelled id = false := by
      cases hb : s.main.isCancelled id with
      | false => rfl
      | true => exact absurd (Actor.isCancelled_eq_true.mp hb) hlive
    have hturn : s.main.Turn (some id) _ [] _ := (Actor.Turn.start hw hmem).modify
      (f := fun m => { m with restartFailures := m.restartFailures + 1 })
    simp only [step, hc, Option.bind_some, turn, restart, hcan, Bool.false_eq_true, if_false,
      Option.map_some, Option.some.injEq] at hs
    subst hs
    unfold restartLoop
    dsimp only [State.setMain]
    unfold maxAutoRestart at hleft
    split
    · next hmax =>
      right
      refine ⟨?_, ?_, rfl⟩
      · simp only [Actor.heap_modify, maxAutoRestart] at hmax
        omega
      · intro t ht hid
        rcases (hturn.modify.finish hlt).cases ht with ⟨-, hne⟩ | ⟨-, hgone⟩ | hnew
        · exact hne (by rw [hid])
        · cases hgone
        · exact Actor.not_created_nil hnew
    · next hmax =>
      left
      refine ⟨?_, ?_, rfl⟩
      · simp only [Actor.heap_modify, maxAutoRestart] at hmax
        omega
      · exact ((hturn.modify.suspend hlt).mem _).mpr (.inr (.inl ⟨rfl, rfl⟩))

namespace Trial

/-- The connection is shown, its core exits, and two attempts of the restart task 5 fail; the
third call has failed too, and the task has not had its turn. -/
def failing : List Action :=
  connecting ++ [.run 2 none 0] ++ coreExited ++ [.run 5 none 0] ++
    [.run 5 none 0, .perform (.message (some "no core")), .run 5 none 0] ++
    [.run 5 none 0, .perform (.message (some "no core")), .run 5 none 0] ++
    [.run 5 none 0, .perform (.message (some "no core"))]

end Trial

/-- A polling task that has been cancelled is still suspended beside the restart task. -/
theorem single_flight_failing : ∃ s, (app {}).Reachable s ∧
    Actor.Holds (Code.is .poll) s.main 3 ∧ s.main.heap.pollTask = none ∧ SingleFlight s.main := by
  have hrun : (System.runBy step (fun _ _ => True) (start {}) Trial.failing).any (fun s =>
      decide (⟨3, .poll .start⟩ ∈ s.main.tasks ∧ s.main.heap.pollTask = none)) = true := by
    decide +kernel
  obtain ⟨s, hr, hq⟩ := System.exists_reachableBy_of_runBy hrun
  obtain ⟨hmem, hpoll⟩ := of_decide_eq_true hq
  exact ⟨s, hr, ⟨_, hmem, rfl⟩, hpoll, single_flight {} s hr⟩

/-- The third failure is the last one. -/
theorem three_attempts_failing : ∃ s s', (attempting {}).Reachable (s, 2) ∧
    step s (.run 5 none 0) = some s' ∧ s'.main.heap.connectionState = .disconnected := by
  have hrec : attempting {} = .ofStep (start {}, 0) (System.recordStep step noteFailure) :=
    System.recording_ofStep
  have hrun : (System.runBy (System.recordStep step noteFailure) (fun _ _ => True) (start {}, 0)
      Trial.failing).any (fun p => decide (p.2 = 2 ∧ p.1.main.code? 5 =
        some (.restart "config" (.connected (some "no core"))) ∧ 5 ∉ p.1.main.cancelled) &&
        (step p.1 (.run 5 none 0)).isSome) = true := by
    decide +kernel
  obtain ⟨⟨s, n⟩, hr, hq⟩ := System.exists_reachableBy_of_runBy hrun
  rw [← hrec] at hr
  obtain ⟨hd, hsome⟩ := Bool.and_eq_true_iff.mp hq
  obtain ⟨hn, hc, hlive⟩ := of_decide_eq_true hd
  obtain ⟨s', hs⟩ := Option.isSome_iff_exists.mp hsome
  have hn' : n = 2 := hn
  subst hn'
  obtain ⟨-, -, hturn⟩ := three_attempts {} s 2 hr
  rcases hturn 5 "config" "no core" none 0 s' hc hlive hs with ⟨hlt, -⟩ | ⟨-, -, hdown⟩
  · omega
  · exact ⟨s, s', hr, hs, hdown⟩

end EasyTierMac.App
