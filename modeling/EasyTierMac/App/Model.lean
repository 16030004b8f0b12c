import Mathlib.Algebra.Order.Ring.Unbundled.Rat
import EasyTierMac.Actor

/-!
# The state of the app (`AppModel.swift`, `BridgeModels.swift`, `BridgeClient.swift`)

`AppModel` lives on the main actor; its `async` functions are the code of the actor's tasks.
`Code` names each function and, where it can be suspended, the point at which it stands with
the locals it still needs. The `await` of a bridge call gives two points: the call is on the
queue, or it has returned and the task can go on.

Times and rates are `Double` in the source and rational numbers here.
-/

namespace EasyTierMac.App

/-! ## Events and results of the bridge -/

inductive BridgeEvent
  | connected (version core : String) (rpcPort : Option UInt16)
  | disconnected
  | coreStarted (pid : UInt32) (rpcPort : UInt16)
  | coreStopped (reason : String)
  | coreExited (code signal : Option Int32)
  | busy (owner : Bool)
  | kicked
  | error (code message : String)
  | unknown (type : String)
  | malformed (json : String)
  deriving DecidableEq, Repr

/-- `etb_validate` result. -/
structure ValidateResult where
  ok : Bool
  error : Option String
  deriving DecidableEq, Repr

/-- `etb_supervisor_status` result. -/
structure SupervisorStatus where
  connected : Bool
  coreRunning : Bool
  rpcPort : Option UInt16
  installed : Bool
  deriving DecidableEq, Repr

/-- One row of `etb_status().ok.rows`. -/
structure PeerRow where
  peerId : UInt32
  rxBytes : UInt64
  txBytes : UInt64
  isLocal : Bool
  deriving DecidableEq, Repr

/-- `etb_status().ok`. -/
structure NetworkStatus where
  rows : List PeerRow
  deriving DecidableEq, Repr

/-- `etb_status` envelope. -/
structure StatusEnvelope where
  ok : Option NetworkStatus
  err : Option String
  deriving DecidableEq, Repr

/-! ## The fields of `AppModel` -/

inductive ConnectionState
  | disconnected
  | connecting
  | connected
  | disconnecting
  deriving DecidableEq, Repr

/-- A transient state where the connect/disconnect control should be disabled. -/
def ConnectionState.isTransitioning (s : ConnectionState) : Bool :=
  s = .connecting ∨ s = .disconnecting

/-- Result of validating the config text. -/
structure ConfigValidation where
  ok : Bool
  error : Option String
  deriving DecidableEq, Repr

def ConfigValidation.unknown : ConfigValidation := ⟨false, none⟩

/-- `ConfigValidation.from`. -/
def ConfigValidation.of (r : ValidateResult) : ConfigValidation := ⟨r.ok, r.error⟩

/-- One rx/tx rate sample for the throughput chart. -/
structure RateSample where
  time : ℚ
  rx : ℚ
  tx : ℚ
  deriving DecidableEq, Repr

/-- Give up auto-restart after this many consecutive failures. -/
def maxAutoRestart : Nat := 3

/-- Retained throughput samples (about 3 min at 1 Hz). -/
def maxRateSamples : Nat := 180

/-- The fields of `AppModel`. A task handle is the number of the task. -/
structure AppModel where
  connectionState : ConnectionState := .disconnected
  validation : ConfigValidation := .unknown
  rows : List PeerRow := []
  supervisorStatus : Option SupervisorStatus := none
  rateSamples : List RateSample := []
  /-- The on-disk config differs from the running config. -/
  configChanged : Bool := false
  statusMessage : Option String := none
  installing : Bool := false
  uninstalling : Bool := false
  autoRestartEnabled : Bool
  autoConnectOnLaunch : Bool
  /-- The TOML currently running, cached to diff against on-disk changes. -/
  runningToml : Option String := none
  restartFailures : Nat := 0
  didAttemptRestore : Bool := false
  lastRxTotal : Option ℚ := none
  lastTxTotal : Option ℚ := none
  lastSampleTime : Option ℚ := none
  pollTask : Option Nat := none
  restartTask : Option Nat := none
  deriving DecidableEq, Repr

/-! ## The code of the tasks -/

/-- Where `connect()` stands. -/
inductive ConnectAt
  /-- In a task that has not run yet. -/
  | start
  | validate (text : String)
  | validated (text : String) (v : ValidateResult)
  | connect (text : String)
  | connected (text : String) (err : Option String)
  deriving DecidableEq, Repr

/-- Where `disconnect()` stands. -/
inductive DisconnectAt
  | start
  | disconnect
  | disconnected
  deriving DecidableEq, Repr

/-- Where `revalidate()` stands. -/
inductive RevalidateAt
  | start
  | validate (text : String)
  | validated (text : String) (v : ValidateResult)
  deriving DecidableEq, Repr

/-- Where `refreshSupervisorStatus()` stands. -/
inductive RefreshAt
  | start
  | status
  | answered (s : Option SupervisorStatus)
  deriving DecidableEq, Repr

/-- Where `installSupervisor()` or `uninstallSupervisor()` stands, up to its call of
`refreshSupervisorStatus()`. -/
inductive InstallAt
  | start
  | install
  | installed (err : Option String)
  deriving DecidableEq, Repr

/-- Where the restart task of `handleCoreExit` stands. -/
inductive RestartAt
  | start
  | sleep
  | connect
  | connected (err : Option String)
  deriving DecidableEq, Repr

/-- Where the polling task of `startPolling` stands. -/
inductive PollAt
  | start
  | status
  | answered (env : Option StatusEnvelope)
  | sleep
  deriving DecidableEq, Repr

inductive Code
  | connect (pc : ConnectAt)
  | disconnect (pc : DisconnectAt)
  | revalidate (pc : RevalidateAt)
  | refresh (pc : RefreshAt)
  | install (pc : InstallAt)
  | uninstall (pc : InstallAt)
  | restart (toml : String) (pc : RestartAt)
  | poll (pc : PollAt)
  deriving DecidableEq, Repr

/-- What a call of the bridge returns. For `connect`, `disconnect`, `install` and
`uninstall` it is the error message; `none` is success. -/
inductive Reply
  | message (err : Option String)
  | status (env : Option StatusEnvelope)
  | supervisorStatus (s : Option SupervisorStatus)
  | validate (v : ValidateResult)
  deriving DecidableEq, Repr

/-- The point after a bridge call has returned. `none`: the code does not wait for such a
reply. -/
def Code.answered : Code → Reply → Option Code
  | .connect (.validate text), .validate v => some (.connect (.validated text v))
  | .connect (.connect text), .message err => some (.connect (.connected text err))
  | .disconnect .disconnect, .message _ => some (.disconnect .disconnected)
  | .revalidate (.validate text), .validate v => some (.revalidate (.validated text v))
  | .refresh .status, .supervisorStatus s => some (.refresh (.answered s))
  | .install .install, .message err => some (.install (.installed err))
  | .uninstall .install, .message err => some (.uninstall (.installed err))
  | .restart toml .connect, .message err => some (.restart toml (.connected err))
  | .poll .status, .status env => some (.poll (.answered env))
  | _, _ => none

/-- The main actor. -/
abbrev Main := Actor AppModel Code

end EasyTierMac.App
