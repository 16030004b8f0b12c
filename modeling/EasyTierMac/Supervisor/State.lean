import EasyTierMac.Supervisor.Hooks
import EasyTierMac.Supervisor.Janitor
import Mathlib.Logic.Function.Basic

/-!
# The state of a running supervisor

`Sys` is one supervisor process together with what it can observe: the lock
protected `Shared` state, every connection, monitor and hook thread, the
no-owner timer and the main thread, and the part of the operating system they
touch (the core children and their life, the other processes, the clock, the
sockets). Threads are program counters: one constructor for each point at which
a thread is about to enter a critical section of the state mutex or a blocking
call, with the local variables that are live there.

Assumed of the environment, and therefore without a constructor: creating a
thread succeeds and no thread panics while it holds the state mutex.

The last fields are ghost state. No step reads them; they record which calls of
`run_hook`, `stop` and `kill` have been made, and a `Line` carries the core
transition it reports, so that the properties can be stated.
-/

namespace EasyTierMac.Supervisor

open Rust (Text)

/-- Connections, in the order in which they were accepted. -/
abbrev ConnId := Nat
/-- Core generations: the children of `start`, in the order in which they were spawned. -/
abbrev Gen := Nat
/-- Hook threads, in the order in which they were started. -/
abbrev HookId := Nat

/-! ## Core process state (`core_proc.rs`) -/

structure Running where
  pid : Int32
  rpcPort : UInt16
  /-- Set by `stop` so the monitor escalates and knows this exit was requested. -/
  stopRequested : Bool
  deriving DecidableEq, Repr

/-- Core process state tracked under `Shared::st`. -/
inductive CoreProc
  | stopped
  | running (r : Running)
  deriving DecidableEq, Repr

/-- How the core process terminated. -/
structure ExitInfo where
  code : Option Int32
  signal : Option Int32
  deriving DecidableEq, Repr

/-- SIGTERM to SIGKILL escalation delay. -/
def TERM_GRACE : Nat := secs 5

/-- Life of a child in the process table. `reaped` also stands for a
generation that has not been spawned. -/
inductive Life
  | alive
  | dead (info : ExitInfo)
  | reaped
  deriving DecidableEq, Repr

/-- A core child spawned by `start`. -/
structure Child where
  pid : Int32 := 0
  rpcPort : UInt16 := 0
  life : Life := .reaped
  deriving DecidableEq, Repr

/-! ## Lines and ghost records -/

/-- The core state a line reports: generation `g` running, or `g` stopped. -/
inductive Report
  | running (g : Gen)
  | stopped (g : Gen)
  deriving DecidableEq, Repr

/-- An event line with the core state it was made from (ghost). -/
structure Line where
  ev : Event
  about : Option Report := none
  deriving DecidableEq, Repr

/-- A call of `run_hook`: `gen` is the generation whose transition it mirrors. -/
structure HookCall where
  event : HookEvent
  reason : Option HookReason
  gen : Option Gen
  deriving DecidableEq, Repr

/-- A call of `stop` that found generation `gen` running and marked it. -/
structure StopCall where
  conn : ConnId
  reason : HookReason
  gen : Gen
  deriving DecidableEq, Repr

inductive Sig
  | term
  | kill
  deriving DecidableEq, Repr

/-- A signal the monitor of generation `gen` sent to `pid` at time `time`. -/
structure Signal where
  gen : Gen
  pid : Int32
  sig : Sig
  time : Nat
  deriving DecidableEq, Repr

/-! ## Threads -/

/-- Where the thread of a connection is in `handle_connection`. -/
inductive ConnPc
  /-- Before the peer credential gate and the `try_clone`s. -/
  | auth
  /-- In `read_hello`, reading the first line. -/
  | readHello
  /-- About to write a refusal and return. -/
  | refuse (ev : Event)
  /-- About to take the lease lock. -/
  | lease (takeover : Bool)
  /-- Took over: about to `try_lock` the old writer and write `kicked`. -/
  | kickWrite (old : ConnId)
  /-- About to shut the old socket down. -/
  | kickShutdown (old : ConnId)
  /-- About to take the snapshot for the hello reply. -/
  | helloSnap
  /-- About to write the hello reply. -/
  | helloWrite (l : Line)
  /-- At the top of the command loop. -/
  | loop
  /-- About to write a reply and continue the loop. -/
  | reply (l : Line)
  /-- `start`: about to take the lock. -/
  | startLock
  /-- `start`: spawned generation `g`, about to call `spawn_monitor`. -/
  | spawnMonitor (g : Gen)
  /-- `start`: about to call `run_hook(Up)` for generation `g`. -/
  | upHook (g : Gen)
  /-- About to take the snapshot for a status reply. -/
  | statusSnap
  /-- `stop`: about to take the lock. -/
  | stopLock (r : HookReason)
  /-- `stop`: marked generation `g`, waiting for `Stopped`. -/
  | stopWait (r : HookReason) (g : Gen)
  /-- `stop`: saw `Stopped`, about to call `run_hook(Down)`. -/
  | stopHook (r : HookReason) (g : Gen)
  /-- The command loop has ended; about to read `kicked`. -/
  | ended
  /-- Not kicked: about to give the lease up. -/
  | giveUp
  /-- `stop(OwnerDrop)` returned `hook`; in `sweep_orphans`. -/
  | sweep (sw : Sweep) (hook : Option HookId)
  /-- About to join the hook of `stop(OwnerDrop)`. -/
  | join (hook : Option HookId)
  /-- About to call `exit(0)`. -/
  | exit
  /-- The thread has returned. -/
  | closed
  deriving DecidableEq, Repr

/-- A connection: its thread, its socket and what it shares through `OwnerSlot`. -/
structure Conn where
  pc : ConnPc := .closed
  /-- What `peer_uid` reports; `none` when `getsockopt` fails. -/
  uid : Option UInt32 := none
  /-- From `next_id`, once the hello was accepted. -/
  id : Nat := 0
  /-- `OwnerSlot::kicked`. -/
  kicked : Bool := false
  /-- Received bytes that are still in the kernel. -/
  sock : List UInt8 := []
  /-- Received bytes that the `BufReader` holds. -/
  buf : List UInt8 := []
  /-- The stream ends after `sock`: the peer closed, or the socket was shut down. -/
  closed : Bool := false
  /-- The lines handed to `write_event`, in the order in which their threads
  held the writer mutex. -/
  out : List Line := []
  /-- The connection was granted the lease (ghost). -/
  granted : Bool := false

/-- Where the monitor of a generation is in its loop, or in `handle_core_exit`. -/
inductive MonPc
  /-- Not created yet. -/
  | absent
  | tryWait
  /-- About to read `stop_requested` under the lock. -/
  | check
  /-- A stop was requested for this generation. -/
  | escalate
  /-- SIGTERM sent; about to set the deadline. -/
  | arm
  /-- The deadline has passed; about to send SIGKILL. -/
  | sendKill
  /-- In `wait_timeout`. -/
  | sleep
  /-- `handle_core_exit`: about to take the lock. -/
  | exitLock (info : ExitInfo)
  /-- Unexpected exit: about to look the owner up. -/
  | push (info : ExitInfo)
  /-- About to write `core_exited` to connection `c`. -/
  | pushWrite (info : ExitInfo) (c : ConnId)
  /-- About to call `run_hook(Down, CoreExited)`. -/
  | downHook
  /-- About to take the lock for the guarded sweep. -/
  | sweepLock
  /-- Sweeping with the lock held. -/
  | sweep (sw : Sweep)
  /-- The thread has returned. -/
  | done
  deriving DecidableEq, Repr

/-- The monitor thread of a generation. -/
structure Monitor where
  pc : MonPc := .absent
  pid : Int32 := 0
  termDeadline : Option Nat := none
  killSent : Bool := false
  deriving DecidableEq, Repr

/-- A hook thread. `joiner` is the connection whose `stop(OwnerDrop)` started it
and keeps its handle; every other caller detaches it. -/
structure HookThread where
  event : HookEvent := .up
  pc : HookPc := .finished .notLaunched
  joiner : Option ConnId := none
  deriving DecidableEq, Repr

/-- The no-owner timer thread. -/
inductive TimerPc
  | notStarted
  | sleeping (due : Nat)
  /-- Found no owner: about to call `exit(0)`. -/
  | exiting
  | done
  deriving DecidableEq, Repr

/-- The main thread. -/
inductive MainPc
  /-- The activation-time sweep. -/
  | sweep (sw : Sweep)
  | serving
  deriving DecidableEq, Repr

/-- Who called `exit(0)`. -/
inductive Exiter
  | conn (c : ConnId)
  | timer
  deriving DecidableEq, Repr

/-! ## The whole process -/

/-- The current owner connection: the `writer`, `shutdown` and `kicked` handles
of the source all belong to connection `conn`. -/
structure OwnerSlot where
  id : Nat
  conn : ConnId
  deriving DecidableEq, Repr

structure Sys where
  /-- `State::owner`. -/
  owner : Option OwnerSlot := none
  /-- `State::core`. -/
  core : CoreProc := .stopped
  /-- `Shared::next_id`. -/
  nextId : Nat := 1
  /-- The monitor that holds the state mutex across blocking calls: only the
  guarded sweep of `handle_core_exit` does. -/
  locked : Option Gen := none
  conns : ConnId → Conn := fun _ => {}
  nConns : Nat := 0
  monitors : Gen → Monitor := fun _ => {}
  hooks : HookId → HookThread := fun _ => {}
  nHooks : Nat := 0
  timer : TimerPc := .notStarted
  main : MainPc := .sweep .ps
  /-- The core children `start` spawned. -/
  children : Gen → Child := fun _ => {}
  nGen : Nat := 0
  /-- Every other process that `ps` lists. -/
  procs : List Proc := []
  /-- The monotone clock. -/
  now : Nat := 0
  exited : Option Exiter := none
  hookCalls : List HookCall := []
  stopCalls : List StopCall := []
  signals : List Signal := []

/-- What does not change while the supervisor runs. -/
structure Env where
  config : Config
  auth : AuthMode
  selfPid : Int32
  /-- `env!("CARGO_PKG_VERSION")`. -/
  version : String
  /-- `serde_json::from_str::<Cmd>`. -/
  fromStr : Text → Except String Cmd

/-- What `pick_free_port`, `build_command` and `spawn` answer in `start`. -/
inductive Spawn
  | noPort (e : String)
  | noLog (e : String)
  | noExec (e : String)
  | child (pid : Int32) (port : UInt16)
  deriving DecidableEq, Repr

/-- What the operating system answers to a blocking call of a thread. -/
inductive Answer
  /-- The call went through. -/
  | done
  /-- The call failed: an I/O error, a read timeout, a busy `try_lock`. -/
  | failed
  /-- A read returned `n` bytes. -/
  | refill (n : Nat)
  /-- `shutdown(Both)`: `n` received bytes can still be read. -/
  | keep (n : Nat)
  | spawn (r : Spawn)
  /-- What `lstat` says about a hook script. -/
  | stat (st : Stat)
  /-- `kill(2)` returned 0, or it did not. -/
  | killed (ok : Bool)
  deriving DecidableEq, Repr

namespace Sys

variable (s : Sys)

/-! ## Updates -/

/-- Change connection `c`. -/
def modConn (c : ConnId) (f : Conn → Conn) : Sys :=
  { s with conns := Function.update s.conns c (f (s.conns c)) }

/-- Move the thread of connection `c`. -/
def setPc (c : ConnId) (pc : ConnPc) : Sys := s.modConn c fun k => { k with pc := pc }

/-- `write_event` on the stream of connection `c`, under its writer mutex. The
result is ignored by every caller. -/
def write (c : ConnId) (l : Line) : Sys := s.modConn c fun k => { k with out := k.out ++ [l] }

/-- Change the monitor of generation `g`. -/
def modMon (g : Gen) (f : Monitor → Monitor) : Sys :=
  { s with monitors := Function.update s.monitors g (f (s.monitors g)) }

/-- Move the monitor of generation `g`. -/
def setMonPc (g : Gen) (pc : MonPc) : Sys := s.modMon g fun m => { m with pc := pc }

/-- Change the process table entry of generation `g`. -/
def setLife (g : Gen) (l : Life) : Sys :=
  { s with children := Function.update s.children g { s.children g with life := l } }

/-- The handle `run_hook` returns when `lstat` answers `st`. -/
def hookHandle (env : Env) (st : Stat) : Option HookId :=
  if st.runs env.auth then some s.nHooks else none

/-- `run_hook`: gate the script and, if it passes, start the hook thread. -/
def runHook (env : Env) (call : HookCall) (joiner : Option ConnId) (st : Stat) : Sys :=
  let s := { s with hookCalls := s.hookCalls ++ [call] }
  if st.runs env.auth then
    { s with
      hooks := Function.update s.hooks s.nHooks ⟨call.event, .created, joiner⟩
      nHooks := s.nHooks + 1 }
  else s

/-! ## Reading the state -/

/-- `core_snapshot`. -/
def coreSnapshot : CoreState × Option Int32 × Option UInt16 :=
  match s.core with
  | .stopped => (.stopped, none, none)
  | .running r => (.running, some r.pid, some r.rpcPort)

/-- The core state as a ghost report: about the latest generation. -/
def report : Option Report :=
  match s.core, s.nGen with
  | _, 0 => none
  | .running _, g + 1 => some (.running g)
  | .stopped, g + 1 => some (.stopped g)

/-- `has_owner`. -/
def hasOwner : Bool := s.owner.isSome

/-- The pid is not the pid of a child that is still to be reaped. -/
def pidFree (pid : Int32) : Bool :=
  (List.range s.nGen).all fun g => (s.children g).life == .reaped || (s.children g).pid != pid

/-- The command line of a core child: `argv[0]` is `core_path`. -/
def coreArgs (corePath : Text) (port : UInt16) : Text :=
  corePath ++ " --daemon --rpc-portal 127.0.0.1:".toList ++ (toString port.toNat).toList

/-- What `ps` lists: the live core children and everything else. -/
def procTable (env : Env) : List Proc :=
  ((List.range s.nGen).filter fun g => (s.children g).life == .alive).map (fun g =>
    ⟨(s.children g).pid, coreArgs env.config.corePath (s.children g).rpcPort⟩) ++ s.procs

/-- The pid names a process. -/
def pidPresent (pid : Int32) : Bool :=
  !s.pidFree pid || s.procs.any fun p => p.pid == pid

end Sys

/-- One blocking call of `sweep_orphans(exclude = None)`. The second component is
where the sweep goes on; `none` when it has returned. -/
def sweepStep (env : Env) (s : Sys) : Sweep → Answer → Option (Sys × Option Sweep)
  | .ps, .failed => some (s, none)
  | .ps, .done =>
    let todo := orphanPids env.config.corePath env.selfPid none (psOutput (s.procTable env))
    some (s, some (.kill todo 0))
  | .kill (pid :: todo) killed, .killed ok =>
    if ok && !s.pidPresent pid then none
    else some (s, some (.kill todo (if ok then killed + 1 else killed)))
  | .kill [] 0, .done => some (s, none)
  | .kill [] (_ + 1), .stat st =>
    -- something was killed: fire the `down` (janitor) hook, detached
    some (s.runHook env ⟨.down, some .janitor, none⟩ none st, none)
  | _, _ => none

end EasyTierMac.Supervisor
