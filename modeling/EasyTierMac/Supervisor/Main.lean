import EasyTierMac.Transition
import EasyTierMac.Supervisor.Server

/-!
# The supervisor as a transition system (`main.rs`)

`step` interleaves every thread of the process with its environment: peers that
connect, send and disconnect, core processes that die, other processes that
come and go, and the clock. After `exit(0)` nothing moves.
-/

namespace EasyTierMac.Supervisor

open Transition (System)

/-- How long the timer waits for an authenticated owner. -/
def NO_OWNER_TIMEOUT : Nat := secs 30

/-- One step of a thread or of the environment. -/
inductive Action
  | main (ans : Answer)
  | timer
  | conn (c : ConnId) (ans : Answer)
  | monitor (g : Gen) (ans : Answer)
  | hook (h : HookId) (ans : Answer)
  /-- A peer connects and its connection thread starts. -/
  | accept (uid : Option UInt32)
  /-- Bytes of the peer arrive. -/
  | arrive (c : ConnId) (bytes : List UInt8)
  /-- The peer closes its end. -/
  | hangup (c : ConnId)
  /-- The core process of generation `g` dies. -/
  | die (g : Gen) (info : ExitInfo)
  /-- Time passes. -/
  | tick (d : Nat)
  /-- Another process appears. -/
  | appear (p : Proc)
  /-- Another process disappears. -/
  | vanish (pid : Int32)
  deriving DecidableEq, Repr

namespace Sys

variable (env : Env) (s : Sys)

/-- The main thread: the activation-time sweep, then the timer and the accept
loops are started. -/
def mainStep (ans : Answer) : Option Sys :=
  match s.main with
  | .sweep sw => (sweepStep env s sw ans).map fun
    | (s', some sw') => { s' with main := .sweep sw' }
    | (s', none) =>
      { s' with main := .serving, timer := .sleeping (s'.now + NO_OWNER_TIMEOUT) }
  | .serving => none

/-- Move the timer. -/
def setTimer (t : TimerPc) : Sys := { s with timer := t }

/-- `start_no_owner_timer`. -/
def timerStep : Option Sys :=
  match s.timer with
  | .sleeping due =>
    if due ≤ s.now then s.lockSt (some (s.setTimer (if s.hasOwner then .done else .exiting)))
    else none
  | .exiting => some (s.exit .timer)
  | .notStarted | .done => none

/-- Move a hook thread. -/
def setHook (h : HookId) (pc : HookPc) : Sys :=
  { s with hooks := Function.update s.hooks h { s.hooks h with pc := pc } }

/-- `run_child`, once the script is spawned: poll it until the deadline, or panic
if the deadline cannot be represented. -/
def launched (now timeout : Nat) : HookPc :=
  match instantAdd now timeout with
  | some deadline => .running deadline
  | none => .finished .panicked

/-- `run_child`: launch, poll until the script exits, kill it at the deadline. -/
def hookStep (h : HookId) (ans : Answer) : Option Sys :=
  match (s.hooks h).pc, ans with
  | .created, .failed => some (s.setHook h (.finished .notLaunched))
  | .created, .done => some (s.setHook h (launched s.now env.config.hookTimeout))
  | .running _, .done => some (s.setHook h (.finished .exited))
  | .running _, .failed => some (s.setHook h (.finished .waitFailed))
  | .running deadline, .killed _ =>
    if deadline ≤ s.now then some (s.setHook h (.finished .timedOut)) else none
  | _, _ => none

/-- `accept_loop`. -/
def acceptStep (uid : Option UInt32) : Option Sys :=
  match s.main with
  | .serving =>
    some { s with
      conns := Function.update s.conns s.nConns { pc := .auth, uid := uid }
      nConns := s.nConns + 1 }
  | .sweep _ => none

/-- Bytes arrive on an open stream. -/
def arriveStep (c : ConnId) (bytes : List UInt8) : Option Sys :=
  if (s.conns c).closed then none
  else some (s.modConn c fun k => { k with sock := k.sock ++ bytes })

/-- The core process of a generation dies, on its own or under a signal. -/
def dieStep (g : Gen) (info : ExitInfo) : Option Sys :=
  if (s.children g).life = .alive then some (s.setLife g (.dead info)) else none

end Sys

/-- One step of the process and its environment. -/
def step (env : Env) (s : Sys) (a : Action) : Option Sys :=
  if s.exited.isSome then none
  else match a with
    | .main ans => s.mainStep env ans
    | .timer => s.timerStep
    | .conn c ans => s.connStep env c ans
    | .monitor g ans => s.monStep env g ans
    | .hook h ans => s.hookStep env h ans
    | .accept uid => s.acceptStep uid
    | .arrive c bytes => s.arriveStep c bytes
    | .hangup c => some (s.modConn c fun k => { k with closed := true })
    | .die g info => s.dieStep g info
    | .tick d => some { s with now := s.now + d }
    | .appear p => some { s with procs := p :: s.procs }
    | .vanish pid => some { s with procs := s.procs.filter fun p => p.pid != pid }

/-- The supervisor: `main` from the activation-time sweep on. -/
def supervisor (env : Env) : System Sys Action := .ofStep {} (step env)

end EasyTierMac.Supervisor
