import EasyTierMac.App.Model

/-!
# The functions of `AppModel`

An `async` function takes the point at which its task stands and runs to the next
suspension or to its end; it is `none` at a point from which it cannot run. What it reads
from outside, the config file and the time, is a parameter of the turn. `Task { … }` creates
a task that runs later.
-/

namespace EasyTierMac.App

/-! ## Status polling and rate -/

namespace AppModel

def resetRateBaseline (m : AppModel) : AppModel :=
  { m with lastRxTotal := none, lastTxTotal := none, lastSampleTime := none }

/-- The total of a counter over the rows. -/
def total (counter : PeerRow → UInt64) (rows : List PeerRow) : ℚ :=
  rows.foldl (fun sum row => sum + (counter row).toNat) 0

/-- The sample since the last one; `none` without a baseline, or if no time has passed.
Counters may reset on reconnect, so negative rates become zero. -/
def sample (m : AppModel) (rows : List PeerRow) (now : ℚ) : Option RateSample :=
  match m.lastRxTotal, m.lastTxTotal, m.lastSampleTime with
  | some lastRx, some lastTx, some lastTime =>
    let dt := now - lastTime
    if dt > 0 then
      some {
        time := now
        rx := max 0 (total PeerRow.rxBytes rows - lastRx) / dt
        tx := max 0 (total PeerRow.txBytes rows - lastTx) / dt }
    else none
  | _, _, _ => none

def recordRate (m : AppModel) (rows : List PeerRow) (now : ℚ) : AppModel :=
  let samples := m.rateSamples ++ (m.sample rows now).toList
  { m with
    rateSamples := samples.drop (samples.length - maxRateSamples)
    lastRxTotal := some (total PeerRow.rxBytes rows)
    lastTxTotal := some (total PeerRow.txBytes rows)
    lastSampleTime := some now }

/-- The order of the peer list: local rows first, then by peer id. -/
def rowLe (lhs rhs : PeerRow) : Bool :=
  if lhs.isLocal ≠ rhs.isLocal then lhs.isLocal else lhs.peerId ≤ rhs.peerId

/-- What `poll()` makes of a status. -/
def polled (m : AppModel) (env : Option StatusEnvelope) (now : ℚ) : AppModel :=
  match env.bind StatusEnvelope.ok with
  | some ns => { m with rows := ns.rows.mergeSort rowLe }.recordRate ns.rows now
  | none => { m with rows := [] }

end AppModel

def stopPolling (s : Main) : Main :=
  (s.cancel s.heap.pollTask).modify fun m => { m with pollTask := none }

def startPolling (s : Main) : Main :=
  let s := (stopPolling s).modify AppModel.resetRateBaseline
  (s.modify fun m => { m with pollTask := some s.next }).spawn (.poll .start)

/-- The polling task: `poll()`, then a second of sleep, until it finds itself cancelled. -/
def poll (s : Main) (id : Nat) (now : ℚ) : PollAt → Option Main
  | .start | .sleep =>
    if s.isCancelled id then some (s.finish id)
    else if s.heap.connectionState = .connected then some (s.call id (.poll .status))
    else some (s.suspend id (.poll .sleep))
  | .answered env =>
    if s.heap.connectionState = .connected then
      some ((s.modify fun m => m.polled env now).suspend id (.poll .sleep))
    else some (s.suspend id (.poll .sleep))
  | .status => none

/-! ## User actions -/

/-- Connect: read, validate, run the network instance. -/
def connect (s : Main) (id : Nat) (file : Option String) : ConnectAt → Option Main
  | .start =>
    if s.heap.connectionState = .disconnected then
      let s := (s.cancel s.heap.restartTask).modify fun m =>
        { m with connectionState := .connecting, statusMessage := none }
      match file with
      | none =>
        some ((s.modify fun m =>
          { m with connectionState := .disconnected, statusMessage := some "配置文件读取失败" }).finish id)
      | some text => some (s.call id (.connect (.validate text)))
    else some (s.finish id)
  | .validated text v =>
    let s := s.modify fun m => { m with validation := .of v }
    if v.ok then some (s.call id (.connect (.connect text)))
    else
      some ((s.modify fun m => { m with
        connectionState := .disconnected
        statusMessage := some ("配置校验失败：" ++ v.error.getD "未知错误") }).finish id)
  | .connected _ (some err) =>
    some ((s.modify fun m => { m with
      connectionState := .disconnected
      statusMessage := some ("连接失败：" ++ err) }).finish id)
  | .connected text none =>
    let s := s.modify fun m => { m with
      runningToml := some text
      configChanged := false
      restartFailures := 0
      statusMessage := none
      connectionState := .connected }
    some (((startPolling s).spawn (.refresh .start)).finish id)
  | .validate _ | .connect _ => none

/-- Disconnect: delete the instance and stop the core. -/
def disconnect (s : Main) (id : Nat) : DisconnectAt → Option Main
  | .start =>
    if s.heap.connectionState = .connected ∨ s.heap.connectionState = .connecting then
      let s := (s.cancel s.heap.restartTask).modify fun m =>
        { m with connectionState := .disconnecting }
      some ((stopPolling s).call id (.disconnect .disconnect))
    else some (s.finish id)
  | .disconnected =>
    some ((s.modify fun m => { m.resetRateBaseline with
      runningToml := none
      configChanged := false
      restartFailures := 0
      rows := []
      rateSamples := []
      statusMessage := none
      connectionState := .disconnected }).finish id)
  | .disconnect => none

/-- Toggle connect/disconnect from a single control. -/
def toggleConnection (s : Main) : Main :=
  match s.heap.connectionState with
  | .disconnected => s.spawn (.connect .start)
  | .connected => s.spawn (.disconnect .start)
  | .connecting | .disconnecting => s

/-- Re-read and revalidate the config file. -/
def revalidate (s : Main) (id : Nat) (file : Option String) : RevalidateAt → Option Main
  | .start =>
    match file with
    | none =>
      some ((s.modify fun m => { m with validation := ⟨false, some "配置文件读取失败"⟩ }).finish id)
    | some text => some (s.call id (.revalidate (.validate text)))
  | .validated text v =>
    let s := s.modify fun m => { m with validation := .of v }
    match s.heap.connectionState, s.heap.runningToml with
    | .connected, some running =>
      some ((s.modify fun m => { m with configChanged := text ≠ running }).finish id)
    | _, _ => some (s.finish id)
  | .validate _ => none

def onBecomeActive (s : Main) : Main := (s.spawn (.revalidate .start)).spawn (.refresh .start)

/-! ## Supervisor install and uninstall -/

def refreshSupervisorStatus (s : Main) (id : Nat) : RefreshAt → Option Main
  | .start => some (s.call id (.refresh .status))
  | .answered (some status) =>
    some ((s.modify fun m => { m with supervisorStatus := some status }).finish id)
  | .answered none => some (s.finish id)
  | .status => none

def installSupervisor (s : Main) (id : Nat) : InstallAt → Option Main
  | .start =>
    if s.heap.installing then some (s.finish id)
    else
      some ((s.modify fun m => { m with installing := true, statusMessage := none }).call id
        (.install .install))
  | .installed err =>
    let s := s.modify fun m => { m with installing := false }
    match err with
    | some err =>
      some ((s.modify fun m => { m with statusMessage := some ("安装失败：" ++ err) }).finish id)
    | none => refreshSupervisorStatus s id .start
  | .install => none

def uninstallSupervisor (s : Main) (id : Nat) : InstallAt → Option Main
  | .start =>
    if s.heap.uninstalling then some (s.finish id)
    else
      some ((s.modify fun m => { m with uninstalling := true }).call id (.uninstall .install))
  | .installed err =>
    let s := s.modify fun m => { m with uninstalling := false }
    match err with
    | some err =>
      some ((s.modify fun m => { m with statusMessage := some ("卸载失败：" ++ err) }).finish id)
    | none => refreshSupervisorStatus s id .start
  | .install => none

/-! ## Event handling -/

/-- On first supervisor connect, auto-connect when the user enabled it. -/
def startupRestoreIfNeeded (s : Main) : Main :=
  if s.heap.didAttemptRestore then s
  else
    let s := s.modify fun m => { m with didAttemptRestore := true }
    if s.heap.autoConnectOnLaunch ∧ s.heap.connectionState = .disconnected then
      s.spawn (.connect .start)
    else s

/-- The head of the loop of the restart task. -/
def restartLoop (s : Main) (id : Nat) (toml : String) : Main :=
  let attempt := s.heap.restartFailures + 1
  if attempt > maxAutoRestart then
    (s.modify fun m => { m with
      connectionState := .disconnected
      runningToml := none
      statusMessage := some
        ("自动重连失败，已停止（连续 " ++ toString maxAutoRestart ++ " 次）") }).finish id
  else
    (s.modify fun m => { m with
      statusMessage := some ("Core 已退出，正在自动重连（第 " ++ toString attempt ++ " 次）…") }).suspend id
        (.restart toml .sleep)

/-- The restart task. It looks at its cancellation after the sleep and after the call. -/
def restart (s : Main) (id : Nat) (toml : String) : RestartAt → Option Main
  | .start => some (restartLoop s id toml)
  | .sleep =>
    if s.isCancelled id then some (s.finish id)
    else some (s.call id (.restart toml .connect))
  | .connected err =>
    if s.isCancelled id then some (s.finish id)
    else
      match err with
      | none =>
        let s := s.modify fun m => { m with
          restartFailures := 0
          connectionState := .connected
          statusMessage := some "已自动重连" }
        some ((startPolling s).finish id)
      | some _ =>
        some (restartLoop
          (s.modify fun m => { m with restartFailures := m.restartFailures + 1 }) id toml)
  | .connect => none

/-- Auto-restart after an unexpected `core_exited`. -/
def handleCoreExit (s : Main) : Main :=
  match s.heap.connectionState, s.heap.runningToml with
  | .connected, some toml =>
    let s := (stopPolling s).modify fun m => { m.resetRateBaseline with rows := [] }
    if s.heap.autoRestartEnabled then
      let s := (s.modify fun m => { m with connectionState := .connecting }).cancel s.heap.restartTask
      (s.modify fun m => { m with restartTask := some s.next }).spawn (.restart toml .start)
    else
      s.modify fun m => { m with
        connectionState := .disconnected
        statusMessage := some "Core 已退出（自动重启已关闭）" }
  | _, _ => s

/-- The `.kicked` case of `handle`. -/
def handleKicked (s : Main) : Main :=
  (stopPolling (s.cancel s.heap.restartTask)).modify fun m => { m.resetRateBaseline with
    connectionState := .disconnected
    runningToml := none
    rows := []
    rateSamples := []
    statusMessage := some "已被其他会话接管，连接已断开" }

/-- `handle`, apart from the prompt of `.busy`. -/
def handle (s : Main) : BridgeEvent → Main
  | .connected _ _ _ => startupRestoreIfNeeded (s.spawn (.refresh .start))
  | .disconnected => s.spawn (.refresh .start)
  | .coreExited _ _ => handleCoreExit s
  | .kicked => handleKicked s
  | .error code message =>
    s.modify fun m => { m with statusMessage := some ("错误（" ++ code ++ "）：" ++ message) }
  | .coreStarted _ _ | .coreStopped _ | .busy _ | .unknown _ | .malformed _ => s

end EasyTierMac.App
