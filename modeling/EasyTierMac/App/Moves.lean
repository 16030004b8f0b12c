import EasyTierMac.App.System

/-!
# What a step of the app can do

`step` inverted, as far as the connection is concerned: `connectionState`, the operations
that are suspended, and which tasks are cancelled. Polling, validation and the other tasks
leave all of it alone. `Ran` has one constructor for each way in which the turn of a task
can go, `Handled` for an event; proofs about runs start from `step_move`.
-/

namespace EasyTierMac.App

open Transition (System)

/-! ## Operations -/

/-- The functions that change the connection and can be suspended. -/
inductive Operation
  | connect
  | disconnect
  | restart
  deriving DecidableEq, Repr

/-- The operation that is suspended in this code. A call of `connect()` or `disconnect()`
that has not begun is none yet; a restart task is one from its creation. -/
def Code.operation : Code → Option Operation
  | .connect .start | .disconnect .start => none
  | .connect _ => some .connect
  | .disconnect _ => some .disconnect
  | .restart _ _ => some .restart
  | _ => none

/-- `bridge.connect` has succeeded, and the next turn shows it. -/
def Code.publishes : Code → Bool
  | .connect (.connected _ none) | .restart _ (.connected none) => true
  | _ => false

/-- A turn that leaves the connection alone. -/
structure Same (s s' : Main) : Prop where
  state : s'.heap.connectionState = s.heap.connectionState
  restart : s'.heap.restartTask = s.heap.restartTask
  cancelled : s'.cancelled = s.cancelled

/-- The codes of tasks that a turn creates besides restart tasks. -/
def Idle (new : List Code) : Prop := ∀ c ∈ new, c.operation = none

/-- The ways in which a turn of the task `id`, which stands at the given code, can go. -/
inductive Ran (s : Main) (id : Nat) (s' : Main) : Code → Prop
  /-- It stops again, in the same operation if it is in one. -/
  | stay {c c' : Code} (ht : s.Turn (some id) (some c') [] s') (hop : c'.operation = c.operation)
      (hpub : c'.publishes = false) (hs : Same s s') : Ran s id s' c
  /-- It ends, and was in no operation. -/
  | done {c : Code} (hop : c.operation = none) (ht : s.Turn (some id) none [] s')
      (hs : Same s s') : Ran s id s' c
  /-- A restart task finds itself cancelled. -/
  | dropped {toml : String} {pc : RestartAt} (hc : id ∈ s.cancelled)
      (ht : s.Turn (some id) none [] s') (hs : Same s s') : Ran s id s' (.restart toml pc)
  | connect {text : String} (hs : s.heap.connectionState = .disconnected)
      (ht : s.Turn (some id) (some (.connect (.validate text))) [] s')
      (hs' : s'.heap.connectionState = .connecting) (hr : s'.heap.restartTask = s.heap.restartTask)
      (hc : s'.cancelled = s.heap.restartTask.toList ++ s.cancelled) :
      Ran s id s' (.connect .start)
  /-- `connect()` cannot read the config file. -/
  | unread (hs : s.heap.connectionState = .disconnected) (ht : s.Turn (some id) none [] s')
      (hs' : s'.heap.connectionState = .disconnected) (hr : s'.heap.restartTask = s.heap.restartTask)
      (hc : s'.cancelled = s.heap.restartTask.toList ++ s.cancelled) :
      Ran s id s' (.connect .start)
  /-- `connect()` fails. -/
  | failed {c : Code} (hop : c.operation = some .connect) (ht : s.Turn (some id) none [] s')
      (hs' : s'.heap.connectionState = .disconnected) (hr : s'.heap.restartTask = s.heap.restartTask)
      (hc : s'.cancelled = s.cancelled) : Ran s id s' c
  /-- `connect()` succeeds. -/
  | connected {text : String}
      (ht : s.Turn (some id) none [.poll .start, .refresh .start] s')
      (hs' : s'.heap.connectionState = .connected) (hr : s'.heap.restartTask = s.heap.restartTask)
      (hc : s'.cancelled = s.heap.pollTask.toList ++ s.cancelled) :
      Ran s id s' (.connect (.connected text none))
  | disconnect (hs : s.heap.connectionState = .connected ∨ s.heap.connectionState = .connecting)
      (ht : s.Turn (some id) (some (.disconnect .disconnect)) [] s')
      (hs' : s'.heap.connectionState = .disconnecting) (hr : s'.heap.restartTask = s.heap.restartTask)
      (hc : s'.cancelled = s.heap.pollTask.toList ++ (s.heap.restartTask.toList ++ s.cancelled)) :
      Ran s id s' (.disconnect .start)
  | disconnected (ht : s.Turn (some id) none [] s')
      (hs' : s'.heap.connectionState = .disconnected) (hr : s'.heap.restartTask = s.heap.restartTask)
      (hc : s'.cancelled = s.cancelled) : Ran s id s' (.disconnect .disconnected)
  /-- The restart task gives up. On its first turn it has not looked at its cancellation. -/
  | gaveUp {toml : String} {pc : RestartAt}
      (hlive : id ∉ s.cancelled ∨ pc = .start ∧ maxAutoRestart ≤ s.heap.restartFailures)
      (ht : s.Turn (some id) none [] s')
      (hs' : s'.heap.connectionState = .disconnected) (hr : s'.heap.restartTask = s.heap.restartTask)
      (hc : s'.cancelled = s.cancelled) : Ran s id s' (.restart toml pc)
  /-- The restart task succeeds. -/
  | restarted {toml : String} (hlive : id ∉ s.cancelled)
      (ht : s.Turn (some id) none [.poll .start] s')
      (hs' : s'.heap.connectionState = .connected) (hr : s'.heap.restartTask = s.heap.restartTask)
      (hc : s'.cancelled = s.heap.pollTask.toList ++ s.cancelled) :
      Ran s id s' (.restart toml (.connected none))

/-- The ways in which an event can be handled. -/
inductive Handled (s s' : Main) : BridgeEvent → Prop
  | same {ev : BridgeEvent} {new : List Code} (hnew : Idle new) (ht : s.Turn none none new s')
      (hs : Same s s') (hkick : ev ≠ .kicked)
      (hexit : ∀ code signal, ev = .coreExited code signal →
        s.heap.connectionState = .connected → s.heap.runningToml = none) : Handled s s' ev
  | kicked (ht : s.Turn none none [] s') (hs' : s'.heap.connectionState = .disconnected)
      (hr : s'.heap.restartTask = s.heap.restartTask)
      (hc : s'.cancelled = s.heap.pollTask.toList ++ (s.heap.restartTask.toList ++ s.cancelled)) :
      Handled s s' .kicked
  /-- The core has exited and is not restarted. -/
  | exited {code signal : Option Int32} (hs : s.heap.connectionState = .connected)
      (ht : s.Turn none none [] s') (hs' : s'.heap.connectionState = .disconnected)
      (hr : s'.heap.restartTask = s.heap.restartTask)
      (hc : s'.cancelled = s.heap.pollTask.toList ++ s.cancelled) :
      Handled s s' (.coreExited code signal)
  /-- The core has exited and is restarted. -/
  | restarts {code signal : Option Int32} {toml : String} (hs : s.heap.connectionState = .connected)
      (ht : s.Turn none none [.restart toml .start] s')
      (hs' : s'.heap.connectionState = .connecting) (hr : s'.heap.restartTask = some s.next)
      (hc : s'.cancelled = s.heap.restartTask.toList ++ (s.heap.pollTask.toList ++ s.cancelled)) :
      Handled s s' (.coreExited code signal)

/-! ## The turn of a task -/

variable {s s' : Main} {id : Nat}

@[simp] theorem heap_stopPolling : (stopPolling s).heap = { s.heap with pollTask := none } := rfl
@[simp] theorem tasks_stopPolling : (stopPolling s).tasks = s.tasks := rfl
@[simp] theorem next_stopPolling : (stopPolling s).next = s.next := rfl
@[simp] theorem cancelled_stopPolling :
    (stopPolling s).cancelled = s.heap.pollTask.toList ++ s.cancelled := rfl

@[simp] theorem connectionState_startPolling :
    (startPolling s).heap.connectionState = s.heap.connectionState := rfl
@[simp] theorem restartTask_startPolling :
    (startPolling s).heap.restartTask = s.heap.restartTask := rfl
@[simp] theorem cancelled_startPolling :
    (startPolling s).cancelled = s.heap.pollTask.toList ++ s.cancelled := rfl

@[simp] theorem connectionState_resetRateBaseline {m : AppModel} :
    m.resetRateBaseline.connectionState = m.connectionState := rfl
@[simp] theorem restartTask_resetRateBaseline {m : AppModel} :
    m.resetRateBaseline.restartTask = m.restartTask := rfl

theorem polled_connectionState (m : AppModel) (env : Option StatusEnvelope) (now : ℚ) :
    (m.polled env now).connectionState = m.connectionState := by
  unfold AppModel.polled
  split
  · rfl
  · rfl

theorem polled_restartFailures (m : AppModel) (env : Option StatusEnvelope) (now : ℚ) :
    (m.polled env now).restartFailures = m.restartFailures := by
  unfold AppModel.polled
  split
  · rfl
  · rfl

theorem polled_pollTask (m : AppModel) (env : Option StatusEnvelope) (now : ℚ) :
    (m.polled env now).pollTask = m.pollTask := by
  unfold AppModel.polled
  split
  · rfl
  · rfl

theorem polled_restartTask (m : AppModel) (env : Option StatusEnvelope) (now : ℚ) :
    (m.polled env now).restartTask = m.restartTask := by
  unfold AppModel.polled
  split
  · rfl
  · rfl

section

variable {who : Option Nat} {d : Option Code} {new : List Code}

theorem stopPolling_turn (h : s.Turn who d new s') : s.Turn who d new (stopPolling s') :=
  h.cancel.modify

theorem startPolling_turn (h : s.Turn who d new s') :
    s.Turn who d (new ++ [.poll .start]) (startPolling s') :=
  (stopPolling_turn h).modify.modify.spawn

end

theorem connect_ran {file : Option String} {pc : ConnectAt} (hw : s.WellFormed)
    (hc : ⟨id, .connect pc⟩ ∈ s.tasks) (h : connect s id file pc = some s') :
    Ran s id s' (.connect pc) := by
  have hlt : id < s.next := hw.lt _ hc
  have ht := Actor.Turn.start hw hc
  cases pc with
  | start =>
    simp only [connect] at h
    split at h
    · next hd =>
      cases file with
      | none =>
        cases h
        exact .unread hd (ht.cancel.modify.modify.finish hlt) rfl rfl rfl
      | some text =>
        cases h
        exact .connect hd (ht.cancel.modify.call hlt) rfl rfl rfl
    · cases h
      exact .done rfl (ht.finish hlt) ⟨rfl, rfl, rfl⟩
  | validated text v =>
    simp only [connect] at h
    split at h
    · cases h
      exact .stay (ht.modify.call hlt) rfl rfl ⟨rfl, rfl, rfl⟩
    · cases h
      exact .failed rfl (ht.modify.modify.finish hlt) rfl rfl rfl
  | connected text err =>
    cases err with
    | some err =>
      cases h
      exact .failed rfl (ht.modify.finish hlt) rfl rfl rfl
    | none =>
      cases h
      exact .connected ((startPolling_turn ht.modify).spawn.finish hlt) rfl rfl rfl
  | validate text => cases h
  | connect text => cases h

theorem disconnect_ran {pc : DisconnectAt} (hw : s.WellFormed)
    (hc : ⟨id, .disconnect pc⟩ ∈ s.tasks) (h : disconnect s id pc = some s') :
    Ran s id s' (.disconnect pc) := by
  have hlt : id < s.next := hw.lt _ hc
  have ht := Actor.Turn.start hw hc
  cases pc with
  | start =>
    simp only [disconnect] at h
    split at h
    · next hd =>
      cases h
      exact .disconnect hd ((stopPolling_turn ht.cancel.modify).call hlt) rfl rfl rfl
    · cases h
      exact .done rfl (ht.finish hlt) ⟨rfl, rfl, rfl⟩
  | disconnected =>
    cases h
    exact .disconnected (ht.modify.finish hlt) rfl rfl rfl
  | disconnect => cases h

theorem restartLoop_ran {toml : String} {pc : RestartAt} {s₁ : Main} (hw : s.WellFormed)
    (hc : ⟨id, .restart toml pc⟩ ∈ s.tasks)
    (ht : s.Turn (some id) (some (.restart toml pc)) [] s₁) (hs : Same s s₁)
    (hlive : id ∉ s.cancelled ∨
      pc = .start ∧ s₁.heap.restartFailures = s.heap.restartFailures) :
    Ran s id (restartLoop s₁ id toml) (.restart toml pc) := by
  have hlt : id < s.next := hw.lt _ hc
  unfold restartLoop
  dsimp only
  split
  · next hmax =>
    refine .gaveUp ?_ (ht.modify.finish hlt) rfl hs.restart hs.cancelled
    rcases hlive with hlive | ⟨hpc, hf⟩
    · exact .inl hlive
    · exact .inr ⟨hpc, by omega⟩
  · exact .stay (ht.modify.suspend hlt) rfl rfl ⟨hs.state, hs.restart, hs.cancelled⟩

theorem restart_ran {toml : String} {pc : RestartAt} (hw : s.WellFormed)
    (hc : ⟨id, .restart toml pc⟩ ∈ s.tasks) (h : restart s id toml pc = some s') :
    Ran s id s' (.restart toml pc) := by
  have hlt : id < s.next := hw.lt _ hc
  have ht := Actor.Turn.start hw hc
  cases pc with
  | start =>
    cases h
    exact restartLoop_ran hw hc ht ⟨rfl, rfl, rfl⟩ (.inr ⟨rfl, rfl⟩)
  | sleep =>
    simp only [restart] at h
    split at h
    · next hcan =>
      cases h
      exact .dropped (Actor.isCancelled_eq_true.mp hcan) (ht.finish hlt) ⟨rfl, rfl, rfl⟩
    · cases h
      exact .stay (ht.call hlt) rfl rfl ⟨rfl, rfl, rfl⟩
  | connected err =>
    simp only [restart] at h
    split at h
    · next hcan =>
      cases h
      exact .dropped (Actor.isCancelled_eq_true.mp hcan) (ht.finish hlt) ⟨rfl, rfl, rfl⟩
    · next hcan =>
      have hlive : id ∉ s.cancelled := fun hmem => hcan (Actor.isCancelled_eq_true.mpr hmem)
      cases err with
      | none =>
        cases h
        exact .restarted hlive ((startPolling_turn ht.modify).finish hlt) rfl rfl rfl
      | some err =>
        cases h
        exact restartLoop_ran hw hc ht.modify ⟨rfl, rfl, rfl⟩ (.inl hlive)
  | connect => cases h

theorem revalidate_ran {file : Option String} {pc : RevalidateAt} (hw : s.WellFormed)
    (hc : ⟨id, .revalidate pc⟩ ∈ s.tasks) (h : revalidate s id file pc = some s') :
    Ran s id s' (.revalidate pc) := by
  have hlt : id < s.next := hw.lt _ hc
  have ht := Actor.Turn.start hw hc
  cases pc with
  | start =>
    cases file with
    | none =>
      cases h
      exact .done rfl (ht.modify.finish hlt) ⟨rfl, rfl, rfl⟩
    | some text =>
      cases h
      exact .stay (ht.call hlt) rfl rfl ⟨rfl, rfl, rfl⟩
  | validated text v =>
    simp only [revalidate] at h
    split at h
    · cases h
      exact .done rfl (ht.modify.modify.finish hlt) ⟨rfl, rfl, rfl⟩
    · cases h
      exact .done rfl (ht.modify.finish hlt) ⟨rfl, rfl, rfl⟩
  | validate text => cases h

/-! Refreshing, installing and uninstalling -/

/-- A task of `refreshSupervisorStatus()`, `installSupervisor()` or `uninstallSupervisor()`. -/
def Code.isErrand : Code → Bool
  | .refresh _ | .install _ | .uninstall _ => true
  | _ => false

theorem Code.operation_of_isErrand {c : Code} (h : c.isErrand = true) : c.operation = none := by
  cases c with
  | refresh pc | install pc | uninstall pc => rfl
  | _ => cases h

theorem Code.publishes_of_isErrand {c : Code} (h : c.isErrand = true) : c.publishes = false := by
  cases c with
  | refresh pc | install pc | uninstall pc => rfl
  | _ => cases h

/-- The fields that the other operations read are as they were. -/
def OnlyStatus (m m' : AppModel) : Prop :=
  m' = { m with
    supervisorStatus := m'.supervisorStatus
    installing := m'.installing
    uninstalling := m'.uninstalling
    statusMessage := m'.statusMessage }

/-- What a turn of such a task does: it goes on as one or ends, and only the status changes. -/
structure Errand (s : Main) (id : Nat) (s' : Main) : Prop where
  turn : ∃ d, s.Turn (some id) d [] s' ∧ ∀ c ∈ d, c.isErrand = true
  heap : OnlyStatus s.heap s'.heap
  cancelled : s'.cancelled = s.cancelled

theorem Errand.ended (ht : s.Turn (some id) none [] s')
    (hheap : OnlyStatus s.heap s'.heap) (hcan : s'.cancelled = s.cancelled) :
    Errand s id s' :=
  ⟨⟨none, ht, by simp⟩, hheap, hcan⟩

theorem Errand.waits {c : Code} (ht : s.Turn (some id) (some c) [] s') (hc : c.isErrand = true)
    (hheap : OnlyStatus s.heap s'.heap) (hcan : s'.cancelled = s.cancelled) :
    Errand s id s' :=
  ⟨⟨some c, ht, by simp [hc]⟩, hheap, hcan⟩

theorem Errand.ran {c : Code} (h : Errand s id s') (hc : c.isErrand = true) : Ran s id s' c := by
  have hsame : Same s s' := by
    refine ⟨?_, ?_, h.cancelled⟩
    · rw [h.heap]
    · rw [h.heap]
  have hop := Code.operation_of_isErrand hc
  obtain ⟨d, ht, hd⟩ := h.turn
  cases d with
  | none => exact .done hop ht hsame
  | some c' =>
    have hc' : c'.isErrand = true := hd c' rfl
    exact .stay ht ((Code.operation_of_isErrand hc').trans hop.symm)
      (Code.publishes_of_isErrand hc') hsame

theorem refresh_errand {pc : RefreshAt} (hw : s.WellFormed)
    (hc : ⟨id, .refresh pc⟩ ∈ s.tasks) (h : refreshSupervisorStatus s id pc = some s') :
    Errand s id s' := by
  have hlt : id < s.next := hw.lt _ hc
  have ht := Actor.Turn.start hw hc
  cases pc with
  | start =>
    cases h
    exact .waits (ht.call hlt) rfl rfl rfl
  | answered status =>
    cases status with
    | none =>
      cases h
      exact .ended (ht.finish hlt) rfl rfl
    | some status =>
      cases h
      exact .ended (ht.modify.finish hlt) rfl rfl
  | status => cases h

theorem install_errand {pc : InstallAt} (hw : s.WellFormed)
    (hc : ⟨id, .install pc⟩ ∈ s.tasks) (h : installSupervisor s id pc = some s') :
    Errand s id s' := by
  have hlt : id < s.next := hw.lt _ hc
  have ht := Actor.Turn.start hw hc
  cases pc with
  | start =>
    simp only [installSupervisor] at h
    split at h
    · cases h
      exact .ended (ht.finish hlt) rfl rfl
    · cases h
      exact .waits (ht.modify.call hlt) rfl rfl rfl
  | installed err =>
    cases err with
    | some err =>
      cases h
      exact .ended (ht.modify.modify.finish hlt) rfl rfl
    | none =>
      cases h
      exact .waits (ht.modify.call hlt) rfl rfl rfl
  | install => cases h

theorem uninstall_errand {pc : InstallAt} (hw : s.WellFormed)
    (hc : ⟨id, .uninstall pc⟩ ∈ s.tasks) (h : uninstallSupervisor s id pc = some s') :
    Errand s id s' := by
  have hlt : id < s.next := hw.lt _ hc
  have ht := Actor.Turn.start hw hc
  cases pc with
  | start =>
    simp only [uninstallSupervisor] at h
    split at h
    · cases h
      exact .ended (ht.finish hlt) rfl rfl
    · cases h
      exact .waits (ht.modify.call hlt) rfl rfl rfl
  | installed err =>
    cases err with
    | some err =>
      cases h
      exact .ended (ht.modify.modify.finish hlt) rfl rfl
    | none =>
      cases h
      exact .waits (ht.modify.call hlt) rfl rfl rfl
  | install => cases h

theorem poll_ran {now : ℚ} {pc : PollAt} (hw : s.WellFormed)
    (hc : ⟨id, .poll pc⟩ ∈ s.tasks) (h : poll s id now pc = some s') : Ran s id s' (.poll pc) := by
  have hlt : id < s.next := hw.lt _ hc
  have ht := Actor.Turn.start hw hc
  cases pc with
  | start | sleep =>
    simp only [poll] at h
    split at h
    · cases h
      exact .done rfl (ht.finish hlt) ⟨rfl, rfl, rfl⟩
    · split at h
      · cases h
        exact .stay (ht.call hlt) rfl rfl ⟨rfl, rfl, rfl⟩
      · cases h
        exact .stay (ht.suspend hlt) rfl rfl ⟨rfl, rfl, rfl⟩
  | answered env =>
    simp only [poll] at h
    split at h
    · cases h
      exact .stay (ht.modify.suspend hlt) rfl rfl
        ⟨polled_connectionState .., polled_restartTask .., rfl⟩
    · cases h
      exact .stay (ht.suspend hlt) rfl rfl ⟨rfl, rfl, rfl⟩
  | status => cases h

theorem turn_ran {file : Option String} {now : ℚ} {c : Code} (hw : s.WellFormed)
    (hc : s.code? id = some c) (h : turn s id file now c = some s') : Ran s id s' c := by
  have hmem := Actor.mem_of_code? hc
  cases c with
  | connect pc => exact connect_ran hw hmem h
  | disconnect pc => exact disconnect_ran hw hmem h
  | revalidate pc => exact revalidate_ran hw hmem h
  | refresh pc => exact (refresh_errand hw hmem h).ran rfl
  | install pc => exact (install_errand hw hmem h).ran rfl
  | uninstall pc => exact (uninstall_errand hw hmem h).ran rfl
  | restart toml pc => exact restart_ran hw hmem h
  | poll pc => exact poll_ran hw hmem h

/-- What a turn leaves of the tasks. None of the codes it leaves or creates shows a success:
that takes a reply. -/
theorem Ran.turn {c : Code} (h : Ran s id s' c) : ∃ d new, s.Turn (some id) d new s' ∧
    (∀ c', d = some c' → c'.publishes = false) ∧ ∀ c' ∈ new, c'.publishes = false := by
  cases h with
  | stay ht hop hpub =>
    refine ⟨_, _, ht, fun c' hc' => ?_, by simp⟩
    cases hc'
    exact hpub
  | connect _ ht | disconnect _ ht =>
    refine ⟨_, _, ht, fun c' hc' => ?_, by simp⟩
    cases hc'
    rfl
  | done _ ht | dropped _ ht | unread _ ht | failed _ ht | disconnected ht | gaveUp _ ht =>
    exact ⟨_, _, ht, by simp, by simp⟩
  | connected ht | restarted _ ht => exact ⟨_, _, ht, by simp, by simp [Code.publishes]⟩

/-- A cancelled task stays cancelled. -/
theorem Ran.cancelled_mono {c : Code} (h : Ran s id s' c) {i : Nat} (hi : i ∈ s.cancelled) :
    i ∈ s'.cancelled := by
  cases h with
  | stay _ _ _ hs | done _ _ hs | dropped _ _ hs => exact hs.cancelled ▸ hi
  | connect _ _ _ _ hc | unread _ _ _ _ hc | connected _ _ _ hc | disconnect _ _ _ _ hc
  | restarted _ _ _ _ hc =>
    rw [hc]
    simp [hi]
  | failed _ _ _ _ hc | disconnected _ _ _ hc | gaveUp _ _ _ _ hc => exact hc ▸ hi

/-- Only a success that is not overtaken by a cancellation is shown. -/
theorem Ran.shown {c : Code} (h : Ran s id s' c) (hs' : s'.heap.connectionState = .connected) :
    s.heap.connectionState = .connected ∨
      c.publishes = true ∧ (c.operation = some .restart → id ∉ s.cancelled) := by
  cases h with
  | stay _ _ _ hs | done _ _ hs | dropped _ _ hs => exact .inl (hs.state.symm.trans hs')
  | connect _ _ h' | unread _ _ h' | failed _ _ h' | disconnect _ _ h' | disconnected _ h'
  | gaveUp _ _ h' =>
    rw [h'] at hs'
    cases hs'
  | connected => exact .inr ⟨rfl, fun h => by cases h⟩
  | restarted hlive => exact .inr ⟨rfl, fun _ => hlive⟩

/-! ## An event -/

theorem startupRestore_turn {new : List Code} (h : s.Turn none none new s') (hs : Same s s')
    (hnew : Idle new) : ∃ new', Idle new' ∧ s.Turn none none new' (startupRestoreIfNeeded s') ∧
      Same s (startupRestoreIfNeeded s') := by
  unfold startupRestoreIfNeeded
  split
  · exact ⟨new, hnew, h, hs⟩
  · dsimp only
    split
    · refine ⟨new ++ [.connect .start], ?_, h.modify.spawn, ⟨hs.state, hs.restart, hs.cancelled⟩⟩
      intro c hc
      rcases List.mem_append.mp hc with hc | hc
      · exact hnew c hc
      · rw [List.mem_singleton.mp hc]
        rfl
    · exact ⟨new, hnew, h.modify, ⟨hs.state, hs.restart, hs.cancelled⟩⟩

theorem idle_nil : Idle [] := fun _ hc => absurd hc List.not_mem_nil

theorem idle_refresh : Idle [.refresh .start] := fun c hc => by
  rw [List.mem_singleton.mp hc]
  rfl

theorem handleCoreExit_handled (code signal : Option Int32) :
    Handled s (handleCoreExit s) (.coreExited code signal) := by
  have ht : s.Turn none none [] s := .user
  unfold handleCoreExit
  split
  · next toml hs htoml =>
    dsimp only
    split
    · exact .restarts hs (stopPolling_turn ht).modify.modify.cancel.modify.spawn rfl rfl rfl
    · exact .exited hs (stopPolling_turn ht).modify.modify rfl rfl rfl
  · next hne =>
    refine .same idle_nil ht ⟨rfl, rfl, rfl⟩ (by simp) ?_
    intro _ _ _ hs
    cases htoml : s.heap.runningToml with
    | none => rfl
    | some toml => exact absurd htoml (hne toml hs)

theorem handle_handled (ev : BridgeEvent) : Handled s (handle s ev) ev := by
  have ht : s.Turn none none [] s := .user
  have hsame : Same s s := ⟨rfl, rfl, rfl⟩
  have hrefresh : s.Turn none none [.refresh .start] (s.spawn (.refresh .start)) := ht.spawn
  cases ev with
  | connected v c p =>
    obtain ⟨new, hnew, hturn, hs⟩ := startupRestore_turn hrefresh ⟨rfl, rfl, rfl⟩ idle_refresh
    exact .same hnew hturn hs (by simp) (by simp)
  | disconnected => exact .same idle_refresh hrefresh ⟨rfl, rfl, rfl⟩ (by simp) (by simp)
  | coreExited code signal => exact handleCoreExit_handled code signal
  | kicked =>
    show Handled s (handleKicked s) .kicked
    exact .kicked (stopPolling_turn ht.cancel).modify rfl rfl rfl
  | error code message =>
    simp only [handle]
    exact .same idle_nil ht.modify ⟨rfl, rfl, rfl⟩ (by simp) (by simp)
  | coreStarted p q | coreStopped r | busy o | unknown t | malformed j =>
    exact .same idle_nil ht hsame (by simp) (by simp)

theorem Idle.publishes {new : List Code} (h : Idle new) {c : Code} (hc : c ∈ new) :
    c.publishes = false := by
  have hop := h c hc
  unfold Code.publishes
  split
  · cases hop
  · cases hop
  · rfl

theorem Handled.turn {ev : BridgeEvent} (h : Handled s s' ev) :
    ∃ new, s.Turn none none new s' ∧ ∀ c ∈ new, c.publishes = false := by
  cases h with
  | same hnew ht => exact ⟨_, ht, fun c hc => hnew.publishes hc⟩
  | kicked ht | exited _ ht => exact ⟨_, ht, by simp⟩
  | restarts _ ht => exact ⟨_, ht, by simp [Code.publishes]⟩

theorem Handled.cancelled_mono {ev : BridgeEvent} (h : Handled s s' ev) {i : Nat}
    (hi : i ∈ s.cancelled) : i ∈ s'.cancelled := by
  cases h with
  | same _ _ hs => exact hs.cancelled ▸ hi
  | kicked _ _ _ hc | exited _ _ _ _ hc | restarts _ _ _ _ hc =>
    rw [hc]
    simp [hi]

/-- No event makes the app show a connection, and `core_exited` ends the one that is shown, if
the app knows the config that is running. -/
theorem Handled.shown {ev : BridgeEvent} (h : Handled s s' ev)
    (hs' : s'.heap.connectionState = .connected) : s.heap.connectionState = .connected ∧
      ∀ code signal, ev = .coreExited code signal → s.heap.runningToml = none := by
  cases h with
  | same _ _ hs _ hexit =>
    have hst := hs.state.symm.trans hs'
    exact ⟨hst, fun code signal he => hexit code signal he hst⟩
  | kicked _ h' | exited _ _ h' | restarts _ _ h' =>
    rw [h'] at hs'
    cases hs'

/-! ## A reply -/

/-- The reply is the success of a `bridge.connect`. -/
def Code.connects : Code → Reply → Bool
  | .connect (.connect _), .message none | .restart _ .connect, .message none => true
  | _, _ => false

/-- The task whose `bridge.connect` is next on the queue, if `r` is its success. -/
def succeeding (s : Main) (r : Reply) : Option Nat :=
  match s.queue with
  | some id :: _ => if (s.code? id).any fun c => c.connects r then some id else none
  | _ => none

theorem succeeding_eq {r : Reply} {queue : List (Option Nat)} {c : Code}
    (hq : s.queue = some id :: queue) (hc : s.code? id = some c) :
    succeeding s r = if c.connects r then some id else none := by
  simp [succeeding, hq, hc]

theorem connects_operation {c : Code} {r : Reply} (h : c.connects r = true) :
    c.operation = some .connect ∨ c.operation = some .restart := by
  unfold Code.connects at h
  split at h
  · exact .inl rfl
  · exact .inr rfl
  · cases h

/-- A reply lets the operation go on, and shows nothing yet. -/
theorem answered_operation {c c' : Code} {r : Reply} (h : c.answered r = some c') :
    c'.operation = c.operation := by
  unfold Code.answered at h
  split at h
  all_goals first
    | cases h; rfl
    | cases h

theorem answered_publishes {c c' : Code} {r : Reply} (h : c.answered r = some c') :
    c'.publishes = c.connects r := by
  unfold Code.answered at h
  split at h
  · cases h; rfl
  · next text err => cases h; cases err <;> rfl
  · cases h; rfl
  · cases h; rfl
  · cases h; rfl
  · cases h; rfl
  · cases h; rfl
  · next toml err => cases h; cases err <;> rfl
  · cases h; rfl
  · cases h

/-! ## A step -/

/-- What the user does, and calls that nobody waits for. -/
def Action.isQuiet : Action → Bool
  | .deliver _ | .handle | .perform _ | .run _ _ _ => false
  | _ => true

inductive Move (s : State) : Action → State → Prop
  | quiet {a : Action} {m : Main} {prompting : Bool} {new : List Code} (ha : a.isQuiet = true)
      (hnew : Idle new) (ht : s.main.Turn none none new m) (hs : Same s.main m) :
      Move s a { s with main := m, prompting := prompting }
  | deliver {ev : BridgeEvent} : Move s (.deliver ev) { s with events := s.events ++ [ev] }
  | handle {ev : BridgeEvent} {events : List BridgeEvent} {m : Main} (he : s.events = ev :: events)
      (hh : Handled s.main m ev) :
      Move s .handle { main := m, events := events, prompting := ev.isBusy }
  | perform {r : Reply} {id : Nat} {queue : List (Option Nat)} {c c' : Code} {m : Main}
      (hq : s.main.queue = some id :: queue) (hc : s.main.code? id = some c)
      (hc' : c.answered r = some c') (ht : s.main.Turn (some id) (some c') [] m)
      (hs : Same s.main m) : Move s (.perform r) { s with main := m }
  | run {id : Nat} {file : Option String} {now : ℚ} {c : Code} {m : Main}
      (hc : s.main.code? id = some c) (hran : Ran s.main id m c) :
      Move s (.run id file now) { s with main := m }

theorem toggle_turn : ∃ new, Idle new ∧ s.Turn none none new (toggleConnection s) ∧
    Same s (toggleConnection s) := by
  have ht : s.Turn none none [] s := .user
  unfold toggleConnection
  split
  · refine ⟨[.connect .start], ?_, ht.spawn, ⟨rfl, rfl, rfl⟩⟩
    intro c hc
    rw [List.mem_singleton.mp hc]
    rfl
  · refine ⟨[.disconnect .start], ?_, ht.spawn, ⟨rfl, rfl, rfl⟩⟩
    intro c hc
    rw [List.mem_singleton.mp hc]
    rfl
  · exact ⟨[], idle_nil, ht, ⟨rfl, rfl, rfl⟩⟩
  · exact ⟨[], idle_nil, ht, ⟨rfl, rfl, rfl⟩⟩

theorem perform_move {s s' : State} {r : Reply} (hw : s.main.WellFormed)
    (h : step s (.perform r) = some s') : Move s (.perform r) s' := by
  obtain ⟨m, hm, rfl⟩ := Option.map_eq_some_iff.mp h
  unfold App.perform at hm
  split at hm
  · next id queue hq =>
    obtain ⟨c, hc, hm⟩ := Option.bind_eq_some_iff.mp hm
    obtain ⟨c', hc', rfl⟩ := Option.map_eq_some_iff.mp hm
    have hmem := Actor.mem_of_code? hc
    have ht : s.main.Turn (some id) (some c) [] { s.main with queue := queue } :=
      (Actor.Turn.start hw hmem).of_eq rfl rfl
    exact .perform hq hc hc' (ht.suspend (hw.lt _ hmem)) ⟨rfl, rfl, rfl⟩
  · cases hm

theorem performPosted_move {s s' : State} (h : step s .performPosted = some s') :
    Move s .performPosted s' := by
  obtain ⟨m, hm, rfl⟩ := Option.map_eq_some_iff.mp h
  have ht : s.main.Turn none none [] s.main := .user
  unfold App.performPosted at hm
  split at hm
  · cases hm
    exact .quiet rfl idle_nil (ht.of_eq rfl rfl) ⟨rfl, rfl, rfl⟩
  · cases hm

theorem handle_move {s s' : State} (h : step s .handle = some s') : Move s .handle s' := by
  simp only [step, State.handleNext] at h
  split at h
  · next ev events he =>
    split at h
    · cases h
    · cases h
      exact .handle he (handle_handled ev)
  · cases h

theorem answerPrompt_move {s s' : State} {takeover : Bool}
    (h : step s (.answerPrompt takeover) = some s') : Move s (.answerPrompt takeover) s' := by
  have ht : s.main.Turn none none [] s.main := .user
  simp only [step, State.closePrompt] at h
  split at h
  · cases h
    cases takeover with
    | true => exact .quiet rfl idle_nil ht.post ⟨rfl, rfl, rfl⟩
    | false => exact .quiet rfl idle_nil ht ⟨rfl, rfl, rfl⟩
  · cases h

/-- **Step inversion.** -/
theorem step_move {s s' : State} {a : Action} (hw : s.main.WellFormed) (h : step s a = some s') :
    Move s a s' := by
  have ht : s.main.Turn none none [] s.main := .user
  cases a with
  | toggle =>
    cases h
    obtain ⟨new, hnew, hturn, hs⟩ := toggle_turn (s := s.main)
    exact .quiet rfl hnew hturn hs
  | becomeActive =>
    cases h
    have hnew : Idle [.revalidate .start, .refresh .start] := by simp [Idle, Code.operation]
    exact .quiet rfl hnew ht.spawn.spawn ⟨rfl, rfl, rfl⟩
  | openSettings =>
    cases h
    exact .quiet rfl idle_refresh ht.spawn ⟨rfl, rfl, rfl⟩
  | install =>
    cases h
    have hnew : Idle [.install .start] := by simp [Idle, Code.operation]
    exact .quiet rfl hnew ht.spawn ⟨rfl, rfl, rfl⟩
  | uninstall =>
    cases h
    have hnew : Idle [.uninstall .start] := by simp [Idle, Code.operation]
    exact .quiet rfl hnew ht.spawn ⟨rfl, rfl, rfl⟩
  | setAutoRestart on | setAutoConnectOnLaunch on | launchAtLoginFailed description =>
    cases h
    exact .quiet rfl idle_nil ht.modify ⟨rfl, rfl, rfl⟩
  | answerPrompt takeover => exact answerPrompt_move h
  | deliver ev =>
    cases h
    exact .deliver
  | handle => exact handle_move h
  | perform r => exact perform_move hw h
  | performPosted => exact performPosted_move h
  | run id file now =>
    obtain ⟨m, hm, rfl⟩ := Option.map_eq_some_iff.mp h
    obtain ⟨c, hc, hm⟩ := Option.bind_eq_some_iff.mp hm
    exact .run hc (turn_ran hw hc hm)

/-- The numbering of the tasks is an invariant. -/
theorem Move.wellFormed {s s' : State} {a : Action} (hw : s.main.WellFormed) (h : Move s a s') :
    s'.main.WellFormed := by
  cases h with
  | quiet _ _ ht => exact ht.wellFormed hw (by simp)
  | deliver => exact hw
  | handle _ hh =>
    obtain ⟨new, ht, -⟩ := hh.turn
    exact ht.wellFormed hw (by simp)
  | perform _ hc _ ht =>
    refine ht.wellFormed hw fun i hi => ?_
    cases hi
    exact hw.lt _ (Actor.mem_of_code? hc)
  | run hc hran =>
    obtain ⟨d, new, ht, -⟩ := hran.turn
    refine ht.wellFormed hw fun i hi => ?_
    cases hi
    exact hw.lt _ (Actor.mem_of_code? hc)

theorem start_wellFormed (d : Defaults) : (start d).main.WellFormed where
  unique t ht u hu hid := by
    simp only [start, onBecomeActive, Actor.spawn, List.nil_append, List.cons_append, List.mem_cons,
      List.not_mem_nil, or_false] at ht hu
    rcases ht with rfl | rfl
    · rcases hu with rfl | rfl
      · rfl
      · cases hid
    · rcases hu with rfl | rfl
      · cases hid
      · rfl
  lt t ht := by
    simp only [start, onBecomeActive, Actor.spawn, List.nil_append, List.cons_append, List.mem_cons,
      List.not_mem_nil, or_false] at ht
    rcases ht with rfl | rfl
    · exact Nat.zero_lt_two
    · exact Nat.one_lt_two

theorem reachable_wellFormed {d : Defaults} {P : State → Action → Prop} {s : State}
    (h : (app d).ReachableBy P s) : s.main.WellFormed :=
  h.invariant (I := fun s => s.main.WellFormed) (start_wellFormed d) fun _ hw _ hs =>
    (step_move hw hs).wellFormed hw

end EasyTierMac.App
