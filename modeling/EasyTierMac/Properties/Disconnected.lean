import EasyTierMac.App.Tidy

/-!
# Disconnected means clean

`CleanWhenDisconnected` says that nothing of a connection is left once `connectionState` is
`.disconnected` and no operation is suspended. Five paths lead there, and only `disconnect()`
clears everything: `kicked` forgets `configChanged`, a core exit without restart forgets all
but the rows, and the restart task that gives up forgets `rateSamples` and `configChanged`. A
`connect()` that has been overtaken by another one can even leave a polling task behind
(`unclean_disconnected`).

In the runs that avoid these (`Orderly`) the app is clean whenever it is disconnected
(`disconnected_clean`).
-/

namespace EasyTierMac.App

open Transition (System)

/-- `.disconnected`, with no operation suspended, means that nothing of the connection is
left, and that no polling task runs: one that is still suspended has been cancelled. -/
def CleanWhenDisconnected (s : State) : Prop :=
  s.main.heap.connectionState = .disconnected → (∀ t ∈ s.main.tasks, t.code.operation = none) →
    Clean s.main.heap ∧ s.main.heap.pollTask = none ∧ ∀ i, ¬ Live s.main .poll i

theorem Tidy.cleanWhenDisconnected {s : State} (h : Tidy s.main) : CleanWhenDisconnected s := by
  intro hs hno
  have hne : s.main.heap.connectionState ≠ .connected := by simp [hs]
  refine ⟨h.clean hs ?_, h.still hne, h.not_polling hne⟩
  rintro i ⟨c, hmem, hr⟩
  have hop := hno _ hmem
  cases c with
  | disconnect pc => cases pc <;> simp_all [Code.role, Code.operation]
  | connect pc => cases pc <;> simp_all [Code.role]
  | _ => simp_all [Code.role]

/-- **Disconnected means clean, in every orderly run.** -/
theorem disconnected_clean (d : Defaults) (s : State) (h : (app d).ReachableBy Orderly s) :
    CleanWhenDisconnected s := by
  have hinv : Tidy s.main ∧ s.main.WellFormed :=
    h.invariant (I := fun s => Tidy s.main ∧ s.main.WellFormed)
      ⟨tidy_start d, start_wellFormed d⟩ fun _ ⟨ht, hw⟩ hord hs =>
        ⟨ht.step hw hord hs, (step_move hw hs).wellFormed hw⟩
  exact hinv.1.cleanWhenDisconnected

namespace Trial

/-- The config file has changed under the connection that task 2 made. -/
def edited : List Action :=
  [.becomeActive, .run 5 (some "other config") 0, .perform (.validate ⟨true, none⟩),
    .run 5 none 0]

/-- The polling task 3 asks for the status and gets no rows, at time `now`. -/
def polls (now : ℚ) : List Action :=
  [.run 3 none now, .perform (.status (some ⟨some ⟨[]⟩, none⟩)), .run 3 none now]

/-- An attempt of the restart task 5 that fails. -/
def noCore : List Action :=
  [.run 5 none 0, .perform (.message (some "no core")), .run 5 none 0]

/-- The user disconnects: task 7. -/
def disconnects : List Action :=
  [.toggle, .run 7 none 0, .perform (.message none), .run 7 none 0]

/-- Task 3 connects again while task 2 still holds its success, and is refused. -/
def twice : List Action :=
  [.toggle, .run 3 (some "config") 0, .perform (.validate ⟨true, none⟩), .run 3 none 0,
    .run 2 none 0, .perform (.message (some "busy")), .run 3 none 0]

end Trial

/-- A run, by clicks on the pill, after which the app is disconnected but not clean. -/
theorem exists_unclean (l : List Action) (p : AppModel → Bool)
    (h : (System.runBy step ByPill (start {}) l).any (fun s => decide (
      s.main.heap.connectionState = .disconnected ∧ (∀ t ∈ s.main.tasks, t.code.operation = none) ∧
        p s.main.heap = true)) = true)
    (hp : ∀ m : AppModel, p m = true → Clean m → m.pollTask ≠ none) :
    ∃ s, (app {}).ReachableBy ByPill s ∧ p s.main.heap = true ∧ ¬ CleanWhenDisconnected s := by
  obtain ⟨s, hr, hq⟩ := System.exists_reachableBy_of_runBy h
  obtain ⟨hs, hop, hd⟩ := of_decide_eq_true hq
  refine ⟨s, hr, hd, fun hc => ?_⟩
  obtain ⟨hclean, hpoll, -⟩ := hc hs hop
  exact hp _ hd hclean hpoll

/-- `configChanged` survives a takeover, `runningToml` a core exit with auto-restart off, the
samples a restart that is given up, and a polling task a `connect()` that is refused after
another one has succeeded. -/
theorem unclean_disconnected :
    (∃ s, (app {}).ReachableBy ByPill s ∧ s.main.heap.configChanged = true ∧
      ¬ CleanWhenDisconnected s) ∧
    (∃ s, (app {}).ReachableBy ByPill s ∧ s.main.heap.runningToml.isSome = true ∧
      ¬ CleanWhenDisconnected s) ∧
    (∃ s, (app {}).ReachableBy ByPill s ∧ (!s.main.heap.rateSamples.isEmpty) = true ∧
      ¬ CleanWhenDisconnected s) ∧
    ∃ s, (app {}).ReachableBy ByPill s ∧ s.main.heap.pollTask.isSome = true ∧
      ¬ CleanWhenDisconnected s := by
  refine ⟨?_, ?_, ?_, ?_⟩
  · refine exists_unclean (Trial.connecting ++ [.run 2 none 0] ++ Trial.edited ++ Trial.kicked)
      (fun m => m.configChanged) (by decide +kernel) fun m hm hc => ?_
    simp [hc.config] at hm
  · refine exists_unclean (Trial.connecting ++ [.run 2 none 0, .setAutoRestart false] ++
      Trial.coreExited) (fun m => m.runningToml.isSome) (by decide +kernel) fun m hm hc => ?_
    simp [hc.toml] at hm
  · refine exists_unclean (Trial.connecting ++ [.run 2 none 0] ++ Trial.polls 1 ++ Trial.polls 2 ++
      Trial.coreExited ++ [.run 5 none 0] ++ Trial.noCore ++ Trial.noCore ++ Trial.noCore)
      (fun m => !m.rateSamples.isEmpty) (by decide +kernel) fun m hm hc => ?_
    simp [hc.rates] at hm
  · refine exists_unclean (Trial.connecting ++ Trial.kicked ++ Trial.twice)
      (fun m => m.pollTask.isSome) (by decide +kernel) fun m hm _ hno => ?_
    simp [hno] at hm

/-- The user disconnects after two polls and a change of the config file. -/
theorem disconnected_clean_user : ∃ s, (app {}).ReachableBy Orderly s ∧ s.main.next = 8 ∧
    Clean s.main.heap ∧ s.main.heap.pollTask = none ∧ ∀ i, ¬ Live s.main .poll i := by
  have hrun : (System.runBy step Orderly (start {}) (Trial.connecting ++ [.run 2 none 0] ++
      Trial.polls 1 ++ Trial.polls 2 ++ Trial.edited ++ Trial.disconnects)).any (fun s => decide (
        s.main.next = 8 ∧ s.main.heap.connectionState = .disconnected ∧
          ∀ t ∈ s.main.tasks, t.code.operation = none)) = true := by
    decide +kernel
  obtain ⟨s, hr, hq⟩ := System.exists_reachableBy_of_runBy hrun
  obtain ⟨hnext, hs, hop⟩ := of_decide_eq_true hq
  exact ⟨s, hr, hnext, disconnected_clean {} s hr hs hop⟩

end EasyTierMac.App
