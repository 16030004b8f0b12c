import EasyTierMac.Supervisor.State

/-!
# `start`, `stop` and the monitor thread (`core_proc.rs`)

Each definition is one critical section of the state mutex or one blocking call
of the function it is named after. A definition returns `none` where the thread
cannot move: the mutex is held by a guarded sweep, or the operating system's
answer does not fit the call.
-/

namespace EasyTierMac.Supervisor

namespace Sys

variable (env : Env) (s : Sys) (c : ConnId) (g : Gen)

/-- `shared.st.lock()`, for a critical section that makes no blocking call. -/
def lockSt (k : Option Sys) : Option Sys := if s.locked.isNone then k else none

/-! ## `start` -/

/-- The spawn inside `start`: the child exists and `st.core` says so. -/
def spawnChild (pid : Int32) (port : UInt16) : Sys :=
  { s with
    core := .running { pid := pid, rpcPort := port, stopRequested := false }
    children := Function.update s.children s.nGen ⟨pid, port, .alive⟩
    nGen := s.nGen + 1 }

/-- A `spawn_failed` reply. -/
def spawnFailed (msg : String) : Sys := s.setPc c (.reply ⟨.error "spawn_failed" msg, none⟩)

/-- `start`: the critical section, from the idempotence check to the release of
the lock. The child gets a pid that no child still to be reaped has. -/
def startLock (ans : Answer) : Option Sys :=
  s.lockSt <|
    match s.core, ans with
    | .running r, .done => some (s.setPc c (.reply ⟨.coreStarted r.pid r.rpcPort, s.report⟩))
    | .stopped, .spawn (.noPort e) => some (s.spawnFailed c ("could not pick a free port: " ++ e))
    | .stopped, .spawn (.noLog e) => some (s.spawnFailed c ("open core log: " ++ e))
    | .stopped, .spawn (.noExec e) =>
      some (s.spawnFailed c ("spawn " ++ String.ofList env.config.corePath ++ ": " ++ e))
    | .stopped, .spawn (.child pid port) =>
      if s.pidFree pid then some ((s.spawnChild pid port).setPc c (.spawnMonitor s.nGen)) else none
    | _, _ => none

/-- `spawn_monitor`: the monitor thread of generation `g` exists. -/
def spawnMonitor : Sys :=
  (s.modMon g fun _ => { pc := .tryWait, pid := (s.children g).pid }).setPc c (.upHook g)

/-- `start`: `run_hook(Up)`, detached, then the reply of the command loop. -/
def upHook : Answer → Option Sys
  | .stat st =>
    some ((s.runHook env ⟨.up, none, some g⟩ none st).setPc c
      (.reply ⟨.coreStarted (s.children g).pid (s.children g).rpcPort, some (.running g)⟩))
  | _ => none

/-! ## `stop` -/

/-- Where the caller of `stop` goes on: the command loop writes `core_stopped`,
the owner-disconnect path sweeps and keeps the hook handle. -/
def afterStopPc (r : HookReason) (wasRunning : Bool) (hook : Option HookId)
    (about : Option Report) : ConnPc :=
  match r with
  | .ownerDrop => .sweep .ps hook
  | _ =>
    let reason := if wasRunning then "requested" else "already_stopped"
    .reply ⟨.coreStopped reason, about⟩

/-- `stop` returns. -/
def afterStop (r : HookReason) (wasRunning : Bool) (hook : Option HookId)
    (about : Option Report) : Sys :=
  s.setPc c (afterStopPc r wasRunning hook about)

/-- `r.stop_requested = true` on behalf of `stop(reason)` of connection `c`. -/
def markStop (r : HookReason) (run : Running) : Sys :=
  { s with
    core := .running { run with stopRequested := true }
    stopCalls := s.stopCalls ++ [⟨c, r, s.nGen - 1⟩] }

/-- `stop`: the first critical section. Nothing to stop, or the running
generation is marked and the thread starts to wait. -/
def stopLock (r : HookReason) : Option Sys :=
  s.lockSt <| some <|
    match s.core with
    | .stopped => s.afterStop c r false none s.report
    | .running run => (s.markStop c r run).setPc c (.stopWait r (s.nGen - 1))

/-- `stop`: one turn of the wait loop, with the lock re-acquired. It looks at
the current state only, not at the generation it marked. -/
def stopWake (r : HookReason) : Option Sys :=
  s.lockSt <| some <|
    match s.core with
    | .stopped => s.setPc c (.stopHook r g)
    | .running _ => s

/-- `stop`: `run_hook(Down, reason)`, then return to the caller. The
owner-disconnect path keeps the handle, the command loop drops it. -/
def stopHook (r : HookReason) : Answer → Option Sys
  | .stat st =>
    let joiner := if r = .ownerDrop then some c else none
    some ((s.runHook env ⟨.down, some r, some g⟩ joiner st).afterStop c r true
      (s.hookHandle env st) (some (.stopped g)))
  | _ => none

/-! ## The monitor -/

/-- `try_wait`. An error takes the exit path with nothing known about the exit,
and without having reaped. -/
def monTryWait : Answer → Option Sys
  | .done =>
    match (s.children g).life with
    | .alive => some (s.setMonPc g .check)
    | .dead info => some ((s.setLife g .reaped).setMonPc g (.exitLock info))
    | .reaped => none
  | .failed => some (s.setMonPc g (.exitLock ⟨none, none⟩))
  | _ => none

/-- Was a stop requested for the generation with this pid? -/
def stopRequestedFor (pid : Int32) : Bool :=
  match s.core with
  | .running r => r.pid == pid && r.stopRequested
  | .stopped => false

/-- The monitor's critical section before it escalates. -/
def monCheck : Option Sys :=
  s.lockSt <| some <|
    s.setMonPc g (if s.stopRequestedFor (s.monitors g).pid then .escalate else .sleep)

/-- `send_signal`: `kill(2)` on the pid of the monitor. -/
def sendSignal (sig : Sig) : Sys :=
  { s with signals := s.signals ++ [⟨g, (s.monitors g).pid, sig, s.now⟩] }

/-- The escalation step: SIGTERM when none was sent, SIGKILL when the deadline
has passed and none was sent. -/
def monEscalate : Sys :=
  match (s.monitors g).termDeadline with
  | none => (s.sendSignal g .term).setMonPc g .arm
  | some deadline =>
    if !(s.monitors g).killSent && deadline ≤ s.now then s.setMonPc g .sendKill
    else s.setMonPc g .sleep

/-- `term_deadline = Some(Instant::now() + TERM_GRACE)`. -/
def monArm : Sys :=
  s.modMon g fun m => { m with pc := .sleep, termDeadline := some (s.now + TERM_GRACE) }

/-- SIGKILL, after the deadline was found to have passed. -/
def monSendKill : Sys :=
  (s.sendSignal g .kill).modMon g fun m => { m with pc := .sleep, killSent := true }

/-- `st.core = CoreProc::Stopped`. -/
def setStopped : Sys := { s with core := .stopped }

/-- `handle_core_exit`: the `Stopped` transition. A generation other than the
one the monitor watches is left alone. -/
def handleCoreExit (info : ExitInfo) : Option Sys :=
  s.lockSt <| some <|
    match s.core with
    | .running r =>
      if r.pid = (s.monitors g).pid then
        s.setStopped.setMonPc g (if r.stopRequested then .done else .push info)
      else s.setMonPc g .done
    | .stopped => s.setMonPc g .done

/-- `write_to_owner`: look the writer of the owner up under the lock. -/
def monPush (info : ExitInfo) : Option Sys :=
  s.lockSt <| some <|
    match s.owner with
    | none => s.setMonPc g .downHook
    | some o => s.setMonPc g (.pushWrite info o.conn)

/-- `write_to_owner`: the write. -/
def monPushWrite (info : ExitInfo) (c : ConnId) : Sys :=
  (s.write c ⟨.coreExited info.code info.signal, some (.stopped g)⟩).setMonPc g .downHook

/-- `run_hook(Down, CoreExited)`, detached. -/
def monDownHook : Answer → Option Sys
  | .stat st =>
    some ((s.runHook env ⟨.down, some .coreExited, some g⟩ none st).setMonPc g .sweepLock)
  | _ => none

/-- Who holds the state mutex across blocking calls. -/
def setLocked (by' : Option Gen) : Sys := { s with locked := by' }

/-- The guarded sweep: only if no core is running, and with the lock held until
it ends. -/
def monSweepLock : Option Sys :=
  s.lockSt <| some <|
    match s.core with
    | .stopped => (s.setLocked (some g)).setMonPc g (.sweep .ps)
    | .running _ => s.setMonPc g .done

/-- One call of the guarded sweep; at its end the lock is released. -/
def monSweep (sw : Sweep) (ans : Answer) : Option Sys :=
  (sweepStep env s sw ans).map fun
    | (s', some sw') => s'.setMonPc g (.sweep sw')
    | (s', none) => (s'.setLocked none).setMonPc g .done

/-- A step of the monitor of generation `g`. -/
def monStep (ans : Answer) : Option Sys :=
  match (s.monitors g).pc with
  | .absent | .done => none
  | .tryWait => s.monTryWait g ans
  | .check => s.monCheck g
  | .escalate => some (s.monEscalate g)
  | .arm => some (s.monArm g)
  | .sendKill => some (s.monSendKill g)
  | .sleep => s.lockSt (some (s.setMonPc g .tryWait))
  | .exitLock info => s.handleCoreExit g info
  | .push info => s.monPush g info
  | .pushWrite info c => some (s.monPushWrite g info c)
  | .downHook => s.monDownHook env g ans
  | .sweepLock => s.monSweepLock g
  | .sweep sw => s.monSweep env g sw ans

end Sys

end EasyTierMac.Supervisor
