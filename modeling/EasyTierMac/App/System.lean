import EasyTierMac.App.Operations
import EasyTierMac.Transition

/-!
# The app as a transition system

The main actor runs one turn at a time. Between two turns anything can happen: the user
acts, the serial queue of `BridgeClient` runs its next call, the bridge puts an event into
the stream. The order in which tasks get their turns is not fixed.

The task that reads the event stream handles one event at a time; while the takeover prompt
is open it handles none, but other tasks go on.
-/

namespace EasyTierMac.App

open Transition (System)

/-- The whole app: its main actor and the stream of events. -/
structure State where
  main : Main
  /-- Events that the bridge has delivered and the app has not yet handled. -/
  events : List BridgeEvent := []
  /-- The modal prompt of `promptTakeover` is open. -/
  prompting : Bool := false

inductive Action
  /-- The user clicks the status pill. -/
  | toggle
  /-- The panel opens, or the app becomes active. -/
  | becomeActive
  /-- The settings page opens. -/
  | openSettings
  | install
  | uninstall
  | setAutoRestart (on : Bool)
  | setAutoConnectOnLaunch (on : Bool)
  /-- The login item could not be set. -/
  | launchAtLoginFailed (description : String)
  /-- The user answers the takeover prompt. -/
  | answerPrompt (takeover : Bool)
  /-- The bridge puts an event into the stream. -/
  | deliver (ev : BridgeEvent)
  /-- The event task handles the next event. -/
  | handle
  /-- The serial queue runs its next call, which returns `r` to the task that waits for it. -/
  | perform (r : Reply)
  /-- The serial queue runs a call that nobody waits for. -/
  | performPosted
  /-- A task has its turn: from where it stands to its next suspension. -/
  | run (id : Nat) (file : Option String) (now : ℚ)
  deriving DecidableEq, Repr

/-- A turn of the task `id`. -/
def turn (s : Main) (id : Nat) (file : Option String) (now : ℚ) : Code → Option Main
  | .connect pc => connect s id file pc
  | .disconnect pc => disconnect s id pc
  | .revalidate pc => revalidate s id file pc
  | .refresh pc => refreshSupervisorStatus s id pc
  | .install pc => installSupervisor s id pc
  | .uninstall pc => uninstallSupervisor s id pc
  | .restart toml pc => restart s id toml pc
  | .poll pc => poll s id now pc

/-- The next call on the queue returns. -/
def perform (s : Main) (r : Reply) : Option Main :=
  match s.queue with
  | some id :: queue =>
    (s.code? id).bind fun c => (c.answered r).map fun c' => { s with queue := queue }.suspend id c'
  | _ => none

def performPosted (s : Main) : Option Main :=
  match s.queue with
  | none :: queue => some { s with queue := queue }
  | _ => none

def BridgeEvent.isBusy : BridgeEvent → Bool
  | .busy _ => true
  | _ => false

namespace State

def setMain (s : State) (main : Main) : State := { s with main := main }

/-- The event task takes the next event. -/
def handleNext (s : State) : Option State :=
  match s.events with
  | ev :: events =>
    if s.prompting then none
    else some { main := handle s.main ev, events := events, prompting := ev.isBusy }
  | [] => none

/-- The takeover prompt closes. -/
def closePrompt (s : State) (takeover : Bool) : Option State :=
  if s.prompting then
    some { s with main := if takeover then s.main.post else s.main, prompting := false }
  else none

end State

def step (s : State) : Action → Option State
  | .toggle => some (s.setMain (toggleConnection s.main))
  | .becomeActive => some (s.setMain (onBecomeActive s.main))
  | .openSettings => some (s.setMain (s.main.spawn (.refresh .start)))
  | .install => some (s.setMain (s.main.spawn (.install .start)))
  | .uninstall => some (s.setMain (s.main.spawn (.uninstall .start)))
  | .setAutoRestart on =>
    some (s.setMain (s.main.modify fun m => { m with autoRestartEnabled := on }))
  | .setAutoConnectOnLaunch on =>
    some (s.setMain (s.main.modify fun m => { m with autoConnectOnLaunch := on }))
  | .launchAtLoginFailed description =>
    some (s.setMain (s.main.modify fun m =>
      { m with statusMessage := some ("开机自启设置失败：" ++ description) }))
  | .answerPrompt takeover => s.closePrompt takeover
  | .deliver ev => some { s with events := s.events ++ [ev] }
  | .handle => s.handleNext
  | .perform r => (perform s.main r).map s.setMain
  | .performPosted => (performPosted s.main).map s.setMain
  | .run id file now => ((s.main.code? id).bind (turn s.main id file now)).map s.setMain

/-- The settings that `init` reads back from `UserDefaults`. -/
structure Defaults where
  autoRestart : Bool := true
  autoConnectOnLaunch : Bool := true
  deriving DecidableEq, Repr

/-- `AppModel.init`: nothing has run, a revalidation and a refresh have been created. -/
def start (d : Defaults) : State where
  main := onBecomeActive {
    heap := { autoRestartEnabled := d.autoRestart, autoConnectOnLaunch := d.autoConnectOnLaunch } }

def app (d : Defaults) : System State Action := .ofStep (start d) step

/-- The status pill cannot be clicked. -/
def pillDisabled (m : AppModel) : Bool :=
  m.connectionState.isTransitioning
    || (decide (m.connectionState = .disconnected) && !m.validation.ok)
    || (match m.supervisorStatus with
      | some status => !status.installed
      | none => false)

/-- The user only clicks a pill that can be clicked. -/
def ByPill (s : State) (a : Action) : Prop := a = .toggle → pillDisabled s.main.heap = false

instance : ∀ s a, Decidable (ByPill s a) := fun s a =>
  inferInstanceAs (Decidable (a = .toggle → pillDisabled s.main.heap = false))

namespace Trial

/-- The config is valid, the user connects, and `bridge.connect` succeeds. -/
def connecting : List Action :=
  [.run 0 (some "config") 0, .perform (.validate ⟨true, none⟩), .run 0 none 0, .toggle,
    .run 2 (some "config") 0, .perform (.validate ⟨true, none⟩), .run 2 none 0,
    .perform (.message none)]

def coreExited : List Action := [.deliver (.coreExited (some 1) none), .handle]

def kicked : List Action := [.deliver .kicked, .handle]

end Trial

end EasyTierMac.App
