import EasyTierMac.Transition
import EasyTierMac.Supervisor.State

/-!
# The core lifecycle, abstractly

What the supervisor is for, seen from the core process: callers ask for a core
to be started or stopped, one monitor per generation reaps and signals it, and
hooks mirror the transitions. Sockets, leases, lines and sweeps are gone; what
is left of a connection is its `Call`, and of a monitor its `Mon`.

The machine keeps the races of the program: reaping happens outside the lock,
the monitor is created after the spawn, a stop marks the current generation and
later only looks at whether the core is stopped.
-/

namespace EasyTierMac.Lifecycle

open Function (update)
open Supervisor (Gen ConnId CoreProc Running Child Life ExitInfo HookReason HookCall StopCall
  Signal TERM_GRACE)

/-- Where the monitor of a generation is. -/
inductive Phase
  | absent
  | tryWait
  | check
  | escalate
  | arm
  | sendKill
  | sleep
  /-- Past the poll loop, before the `Stopped` transition. -/
  | exiting
  /-- Unexpected exit; the down hook is still to be fired. -/
  | reporting
  /-- Nothing left to do for this generation. -/
  | over
  deriving DecidableEq, Repr

/-- In the poll loop. -/
def Phase.polling : Phase → Prop
  | .tryWait | .check | .escalate | .arm | .sendKill | .sleep => True
  | _ => False

/-- Past the `Stopped` transition. -/
def Phase.settled : Phase → Prop
  | .reporting | .over => True
  | _ => False

/-- The monitor of a generation. -/
structure Mon where
  phase : Phase := .absent
  pid : Int32 := 0
  termDeadline : Option Nat := none
  killSent : Bool := false
  deriving DecidableEq, Repr

/-- What a caller of `start` and `stop` is doing. -/
inductive Call
  | idle
  /-- `start` spawned generation `g` and has not created its monitor. -/
  | spawned (g : Gen)
  /-- `start` is about to fire the up hook of generation `g`. -/
  | raising (g : Gen)
  /-- `stop` marked generation `g` and waits. -/
  | stopping (r : HookReason) (g : Gen)
  /-- `stop` saw the core stopped and is about to fire the down hook. -/
  | lowering (r : HookReason) (g : Gen)
  /-- `stop` has returned to the teardown of its connection. -/
  | torn
  deriving DecidableEq, Repr

/-- Where `stop` leaves its caller. -/
def Call.after : HookReason → Call
  | .ownerDrop => .torn
  | _ => .idle

structure State where
  core : CoreProc := .stopped
  nGen : Nat := 0
  child : Gen → Child := fun _ => {}
  mon : Gen → Mon := fun _ => {}
  call : ConnId → Call := fun _ => .idle
  hookCalls : List HookCall := []
  stopCalls : List StopCall := []
  signals : List Signal := []
  now : Nat := 0

namespace State

variable (v : State)

@[simp] def setPhase (g : Gen) (p : Phase) : State :=
  { v with mon := update v.mon g { v.mon g with phase := p } }

@[simp] def setCall (c : ConnId) (k : Call) : State := { v with call := update v.call c k }

@[simp] def setLife (g : Gen) (l : Life) : State :=
  { v with child := update v.child g { v.child g with life := l } }

@[simp] def addHook (h : HookCall) : State := { v with hookCalls := v.hookCalls ++ [h] }

@[simp] def addSignal (g : Gen) (sig : Supervisor.Sig) : State :=
  { v with signals := v.signals ++ [⟨g, (v.mon g).pid, sig, v.now⟩] }

/-- The core was asked to stop, under this pid. -/
def Requested (pid : Int32) : Prop :=
  ∃ run, v.core = .running run ∧ run.pid = pid ∧ run.stopRequested = true

end State

inductive Act
  | spawn (c : ConnId) (pid : Int32) (port : UInt16)
  | monitor (c : ConnId)
  | upHook (c : ConnId)
  | noStop (c : ConnId) (r : HookReason)
  | mark (c : ConnId) (r : HookReason)
  | seen (c : ConnId)
  | downHook (c : ConnId)
  | poll (g : Gen)
  | reap (g : Gen)
  | waitErr (g : Gen)
  | checkYes (g : Gen)
  | checkNo (g : Gen)
  | term (g : Gen)
  | arm (g : Gen)
  | decideKill (g : Gen)
  | decideWait (g : Gen)
  | kill (g : Gen)
  | wake (g : Gen)
  | exit (g : Gen)
  | exitOther (g : Gen)
  | exitHook (g : Gen)
  | die (g : Gen)
  | tick
  deriving DecidableEq, Repr

inductive Step (v : State) : Act → State → Prop
  | spawn {c : ConnId} {pid : Int32} {port : UInt16} (hc : v.call c = .idle)
      (hcore : v.core = .stopped)
      (hpid : ∀ g < v.nGen, (v.child g).life ≠ .reaped → (v.child g).pid ≠ pid) :
      Step v (.spawn c pid port) { v with
        core := .running { pid := pid, rpcPort := port, stopRequested := false }
        child := update v.child v.nGen ⟨pid, port, .alive⟩
        nGen := v.nGen + 1
        call := update v.call c (.spawned v.nGen) }
  | monitor {c : ConnId} {g : Gen} (hc : v.call c = .spawned g) :
      Step v (.monitor c) { v with
        mon := update v.mon g { phase := .tryWait, pid := (v.child g).pid }
        call := update v.call c (.raising g) }
  | upHook {c : ConnId} {g : Gen} (hc : v.call c = .raising g) :
      Step v (.upHook c) ((v.addHook ⟨.up, none, some g⟩).setCall c .idle)
  | noStop {c : ConnId} {r : HookReason} (hc : v.call c = .idle) (hcore : v.core = .stopped) :
      Step v (.noStop c r) (v.setCall c (.after r))
  | mark {c : ConnId} {r : HookReason} {run : Running} (hc : v.call c = .idle)
      (hcore : v.core = .running run) :
      Step v (.mark c r) { v with
        core := .running { run with stopRequested := true }
        stopCalls := v.stopCalls ++ [⟨c, r, v.nGen - 1⟩]
        call := update v.call c (.stopping r (v.nGen - 1)) }
  | seen {c : ConnId} {r : HookReason} {g : Gen} (hc : v.call c = .stopping r g)
      (hcore : v.core = .stopped) : Step v (.seen c) (v.setCall c (.lowering r g))
  | downHook {c : ConnId} {r : HookReason} {g : Gen} (hc : v.call c = .lowering r g) :
      Step v (.downHook c) ((v.addHook ⟨.down, some r, some g⟩).setCall c (.after r))
  | poll {g : Gen} (hg : (v.mon g).phase = .tryWait) (hlife : (v.child g).life = .alive) :
      Step v (.poll g) (v.setPhase g .check)
  | reap {g : Gen} {info : ExitInfo} (hg : (v.mon g).phase = .tryWait)
      (hlife : (v.child g).life = .dead info) :
      Step v (.reap g) ((v.setLife g .reaped).setPhase g .exiting)
  | waitErr {g : Gen} (hg : (v.mon g).phase = .tryWait) :
      Step v (.waitErr g) (v.setPhase g .exiting)
  | checkYes {g : Gen} (hg : (v.mon g).phase = .check) (hreq : v.Requested (v.mon g).pid) :
      Step v (.checkYes g) (v.setPhase g .escalate)
  | checkNo {g : Gen} (hg : (v.mon g).phase = .check) : Step v (.checkNo g) (v.setPhase g .sleep)
  | term {g : Gen} (hg : (v.mon g).phase = .escalate) (hdl : (v.mon g).termDeadline = none) :
      Step v (.term g) ((v.addSignal g .term).setPhase g .arm)
  | arm {g : Gen} (hg : (v.mon g).phase = .arm) :
      Step v (.arm g) { v with
        mon := update v.mon g
          { v.mon g with phase := .sleep, termDeadline := some (v.now + TERM_GRACE) } }
  | decideKill {g : Gen} {d : Nat} (hg : (v.mon g).phase = .escalate)
      (hdl : (v.mon g).termDeadline = some d) (hsent : (v.mon g).killSent = false)
      (hnow : d ≤ v.now) : Step v (.decideKill g) (v.setPhase g .sendKill)
  | decideWait {g : Gen} (hg : (v.mon g).phase = .escalate) :
      Step v (.decideWait g) (v.setPhase g .sleep)
  | kill {g : Gen} (hg : (v.mon g).phase = .sendKill) :
      Step v (.kill g) { v.addSignal g .kill with
        mon := update v.mon g { v.mon g with phase := .sleep, killSent := true } }
  | wake {g : Gen} (hg : (v.mon g).phase = .sleep) : Step v (.wake g) (v.setPhase g .tryWait)
  | exit {g : Gen} {run : Running} (hg : (v.mon g).phase = .exiting)
      (hcore : v.core = .running run) (hpid : run.pid = (v.mon g).pid) :
      Step v (.exit g) ({ v with core := .stopped }.setPhase g
        (if run.stopRequested then .over else .reporting))
  | exitOther {g : Gen} (hg : (v.mon g).phase = .exiting)
      (hother : ∀ run, v.core = .running run → run.pid ≠ (v.mon g).pid) :
      Step v (.exitOther g) (v.setPhase g .over)
  | exitHook {g : Gen} (hg : (v.mon g).phase = .reporting) :
      Step v (.exitHook g) ((v.addHook ⟨.down, some .coreExited, some g⟩).setPhase g .over)
  | die {g : Gen} {info : ExitInfo} (hlife : (v.child g).life = .alive) :
      Step v (.die g) (v.setLife g (.dead info))
  | tick {d : Nat} : Step v .tick { v with now := v.now + d }

/-- The core lifecycle machine. -/
def machine : Transition.System State Act := ⟨{}, Step⟩

end EasyTierMac.Lifecycle
