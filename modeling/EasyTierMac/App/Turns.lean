import EasyTierMac.App.System
import EasyTierMac.Serial

/-!
# Turns and the serial queue of the app

Every `await` of `AppModel` is the call of a function of `BridgeClient` or a sleep, and every
function of `BridgeClient` puts its work on one serial queue. `Code.waits` says at which points
a task stands there; the functions of `AppModel` are built from the operations of a turn
(`Actor.Works`, `Actor.Stops`), so they keep the discipline of the queue (`Actor.Serial`).
-/

namespace EasyTierMac.App

open Actor (Works Stops Serial)

/-- The task has put a call on the queue of `BridgeClient`, and it has not returned. -/
def Code.waits : Code → Bool
  | .connect (.validate _) | .connect (.connect _) => true
  | .disconnect .disconnect => true
  | .revalidate (.validate _) => true
  | .refresh .status => true
  | .install .install | .uninstall .install => true
  | .restart _ .connect => true
  | .poll .status => true
  | _ => false

variable {s s' : Main} {id : Nat}

/-! ## The functions -/

theorem stopPolling_works {b : Main} (h : Works Code.waits s b) :
    Works Code.waits s (stopPolling b) := h.cancel.modify

theorem startPolling_works {b : Main} (h : Works Code.waits s b) :
    Works Code.waits s (startPolling b) :=
  .spawn rfl (stopPolling_works h).modify.modify

theorem connect_stops {file : Option String} {pc : ConnectAt}
    (h : connect s id file pc = some s') : Stops Code.waits id s s' := by
  cases pc with
  | start =>
    simp only [connect] at h
    split at h
    · cases file with
      | none =>
        cases h
        exact .finish (Works.refl.cancel.modify.modify)
      | some text =>
        cases h
        exact .call (Works.refl.cancel.modify) rfl
    · cases h
      exact .finish .refl
  | validated text v =>
    simp only [connect] at h
    split at h
    · cases h
      exact .call (Works.refl.modify) rfl
    · cases h
      exact .finish (Works.refl.modify.modify)
  | connected text err =>
    cases err with
    | some err =>
      cases h
      exact .finish (Works.refl.modify)
    | none =>
      cases h
      exact .finish (.spawn rfl (startPolling_works Works.refl.modify))
  | validate text => cases h
  | connect text => cases h

theorem disconnect_stops {pc : DisconnectAt} (h : disconnect s id pc = some s') :
    Stops Code.waits id s s' := by
  cases pc with
  | start =>
    simp only [disconnect] at h
    split at h
    · cases h
      exact .call (stopPolling_works Works.refl.cancel.modify) rfl
    · cases h
      exact .finish .refl
  | disconnected =>
    cases h
    exact .finish (Works.refl.modify)
  | disconnect => cases h

theorem revalidate_stops {file : Option String} {pc : RevalidateAt}
    (h : revalidate s id file pc = some s') : Stops Code.waits id s s' := by
  cases pc with
  | start =>
    cases file with
    | none =>
      cases h
      exact .finish (Works.refl.modify)
    | some text =>
      cases h
      exact .call .refl rfl
  | validated text v =>
    simp only [revalidate] at h
    split at h
    · cases h
      exact .finish (Works.refl.modify.modify)
    · cases h
      exact .finish (Works.refl.modify)
  | validate text => cases h

theorem refresh_stops {pc : RefreshAt} {b : Main} (hw : Works Code.waits s b)
    (h : refreshSupervisorStatus b id pc = some s') : Stops Code.waits id s s' := by
  cases pc with
  | start =>
    cases h
    exact .call hw rfl
  | answered status =>
    cases status with
    | some status =>
      cases h
      exact .finish hw.modify
    | none =>
      cases h
      exact .finish hw
  | status => cases h

theorem install_stops {pc : InstallAt} (h : installSupervisor s id pc = some s') :
    Stops Code.waits id s s' := by
  cases pc with
  | start =>
    simp only [installSupervisor] at h
    split at h
    · cases h
      exact .finish .refl
    · cases h
      exact .call (Works.refl.modify) rfl
  | installed err =>
    cases err with
    | some err =>
      cases h
      exact .finish (Works.refl.modify.modify)
    | none =>
      simp only [installSupervisor] at h
      exact refresh_stops Works.refl.modify h
  | install => cases h

theorem uninstall_stops {pc : InstallAt} (h : uninstallSupervisor s id pc = some s') :
    Stops Code.waits id s s' := by
  cases pc with
  | start =>
    simp only [uninstallSupervisor] at h
    split at h
    · cases h
      exact .finish .refl
    · cases h
      exact .call (Works.refl.modify) rfl
  | installed err =>
    cases err with
    | some err =>
      cases h
      exact .finish (Works.refl.modify.modify)
    | none =>
      simp only [uninstallSupervisor] at h
      exact refresh_stops Works.refl.modify h
  | install => cases h

theorem restartLoop_stops {toml : String} {b : Main} (hw : Works Code.waits s b) :
    Stops Code.waits id s (restartLoop b id toml) := by
  unfold restartLoop
  dsimp only
  split
  · exact .finish hw.modify
  · exact .suspend hw.modify rfl

theorem restart_stops {toml : String} {pc : RestartAt} (h : restart s id toml pc = some s') :
    Stops Code.waits id s s' := by
  cases pc with
  | start =>
    cases h
    exact restartLoop_stops .refl
  | sleep =>
    simp only [restart] at h
    split at h
    · cases h
      exact .finish .refl
    · cases h
      exact .call .refl rfl
  | connected err =>
    simp only [restart] at h
    split at h
    · cases h
      exact .finish .refl
    · cases err with
      | none =>
        cases h
        exact .finish (startPolling_works Works.refl.modify)
      | some err =>
        cases h
        exact restartLoop_stops Works.refl.modify
  | connect => cases h

theorem poll_stops {now : ℚ} {pc : PollAt} (h : poll s id now pc = some s') :
    Stops Code.waits id s s' := by
  cases pc with
  | start | sleep =>
    simp only [poll] at h
    split at h
    · cases h
      exact .finish .refl
    · split at h
      · cases h
        exact .call .refl rfl
      · cases h
        exact .suspend .refl rfl
  | answered env =>
    simp only [poll] at h
    split at h
    · cases h
      exact .suspend (Works.refl.modify) rfl
    · cases h
      exact .suspend .refl rfl
  | status => cases h

theorem turn_stops {file : Option String} {now : ℚ} {c : Code}
    (h : turn s id file now c = some s') : Stops Code.waits id s s' := by
  cases c with
  | connect pc => exact connect_stops h
  | disconnect pc => exact disconnect_stops h
  | revalidate pc => exact revalidate_stops h
  | refresh pc => exact refresh_stops .refl h
  | install pc => exact install_stops h
  | uninstall pc => exact uninstall_stops h
  | restart toml pc => exact restart_stops h
  | poll pc => exact poll_stops h

/-! ## The user and the events -/

theorem toggle_works : Works Code.waits s (toggleConnection s) := by
  unfold toggleConnection
  split
  · exact .spawn rfl .refl
  · exact .spawn rfl .refl
  · exact .refl
  · exact .refl

theorem onBecomeActive_works : Works Code.waits s (onBecomeActive s) :=
  .spawn rfl (.spawn rfl .refl)

theorem handleCoreExit_works : Works Code.waits s (handleCoreExit s) := by
  unfold handleCoreExit
  split
  · dsimp only
    split
    · exact .spawn rfl (stopPolling_works .refl).modify.modify.cancel.modify
    · exact (stopPolling_works .refl).modify.modify
  · exact .refl

theorem handle_works (ev : BridgeEvent) : Works Code.waits s (handle s ev) := by
  cases ev with
  | connected version core port =>
    simp only [handle, startupRestoreIfNeeded]
    split
    · exact .spawn rfl .refl
    · split
      · exact .spawn rfl (Works.spawn rfl .refl).modify
      · exact (Works.spawn rfl .refl).modify
  | disconnected => exact .spawn rfl .refl
  | coreExited code signal => exact handleCoreExit_works
  | kicked =>
    show Works Code.waits s (handleKicked s)
    exact (stopPolling_works Works.refl.cancel).modify
  | error code message =>
    simp only [handle]
    exact Works.refl.modify
  | coreStarted pid port | coreStopped reason | busy owner | unknown type | malformed json =>
    exact .refl

/-! ## Replies -/

/-- A reply comes to a task that waits, and it waits no longer. -/
theorem answered_waits {c c' : Code} {r : Reply} (h : c.answered r = some c') :
    c.waits = true ∧ c'.waits = false := by
  unfold Code.answered at h
  split at h
  all_goals first
    | cases h; exact ⟨rfl, rfl⟩
    | cases h

/-- There is a reply to every call. -/
theorem exists_answered {c : Code} (h : c.waits = true) : ∃ r c', c.answered r = some c' := by
  unfold Code.waits at h
  split at h
  · exact ⟨.validate ⟨true, none⟩, _, rfl⟩
  · exact ⟨.message none, _, rfl⟩
  · exact ⟨.message none, _, rfl⟩
  · exact ⟨.validate ⟨true, none⟩, _, rfl⟩
  · exact ⟨.supervisorStatus none, _, rfl⟩
  · exact ⟨.message none, _, rfl⟩
  · exact ⟨.message none, _, rfl⟩
  · exact ⟨.message none, _, rfl⟩
  · exact ⟨.status none, _, rfl⟩
  · cases h

/-! ## A step -/

/-- The queue runs a call. -/
def Action.serves : Action → Bool
  | .perform _ | .performPosted => true
  | _ => false

/-- **Step inversion**, as far as the queue is concerned: the queue runs its first call, or a task
that does not wait has its turn, or what happens is nobody's turn. -/
theorem step_queue {s s' : State} {a : Action} (h : step s a = some s') :
    (∃ r i queue c c', a = .perform r ∧ s.main.queue = some i :: queue ∧ ⟨i, c⟩ ∈ s.main.tasks ∧
      c.answered r = some c' ∧ s'.main = { s.main with queue := queue }.suspend i c') ∨
    (∃ queue, a = .performPosted ∧ s.main.queue = none :: queue ∧
      s'.main = { s.main with queue := queue }) ∨
    (∃ i c, a.serves = false ∧ ⟨i, c⟩ ∈ s.main.tasks ∧ Stops Code.waits i s.main s'.main ∧
      ∃ file now, turn s.main i file now c = some s'.main) ∨
    a.serves = false ∧ Works Code.waits s.main s'.main := by
  cases a with
  | toggle =>
    cases h
    exact .inr (.inr (.inr ⟨rfl, toggle_works⟩))
  | becomeActive =>
    cases h
    exact .inr (.inr (.inr ⟨rfl, onBecomeActive_works⟩))
  | openSettings | install | uninstall =>
    cases h
    exact .inr (.inr (.inr ⟨rfl, .spawn rfl .refl⟩))
  | setAutoRestart on | setAutoConnectOnLaunch on | launchAtLoginFailed description =>
    cases h
    simp only [State.setMain]
    exact .inr (.inr (.inr ⟨rfl, Works.refl.modify⟩))
  | answerPrompt takeover =>
    simp only [step, State.closePrompt] at h
    split at h
    · cases h
      cases takeover with
      | true => exact .inr (.inr (.inr ⟨rfl, Works.refl.post⟩))
      | false => exact .inr (.inr (.inr ⟨rfl, .refl⟩))
    · cases h
  | deliver ev =>
    cases h
    exact .inr (.inr (.inr ⟨rfl, .refl⟩))
  | handle =>
    simp only [step, State.handleNext] at h
    split at h
    · split at h
      · cases h
      · cases h
        exact .inr (.inr (.inr ⟨rfl, handle_works _⟩))
    · cases h
  | perform r =>
    obtain ⟨m, hm, rfl⟩ := Option.map_eq_some_iff.mp h
    unfold App.perform at hm
    split at hm
    · next i queue hq =>
      obtain ⟨c, hc, hm⟩ := Option.bind_eq_some_iff.mp hm
      obtain ⟨c', hc', rfl⟩ := Option.map_eq_some_iff.mp hm
      exact .inl ⟨r, i, queue, c, c', rfl, hq, Actor.mem_of_code? hc, hc', rfl⟩
    · cases hm
  | performPosted =>
    obtain ⟨m, hm, rfl⟩ := Option.map_eq_some_iff.mp h
    unfold App.performPosted at hm
    split at hm
    · next queue hq =>
      cases hm
      exact .inr (.inl ⟨queue, rfl, hq, rfl⟩)
    · cases hm
  | run i file now =>
    obtain ⟨m, hm, rfl⟩ := Option.map_eq_some_iff.mp h
    obtain ⟨c, hc, hm⟩ := Option.bind_eq_some_iff.mp hm
    exact .inr (.inr (.inl ⟨i, c, rfl, Actor.mem_of_code? hc, turn_stops hm, file, now, hm⟩))

end EasyTierMac.App
