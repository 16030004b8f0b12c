import EasyTierMac.Supervisor.CoreProc

/-!
# A connection, start to finish (`server.rs`)

`connStep` runs the thread of one connection: the peer gate, `read_hello`, the
lease, the notification of a displaced owner, the hello reply, the command loop
and the teardown after a genuine disconnect. As in `CoreProc.lean`, each
definition is one critical section or one blocking call.
-/

namespace EasyTierMac.Supervisor

open Rust (trim)

/-- Lease outcome for a `hello`. -/
inductive Lease
  | accept
  | busy
  | takeover
  deriving DecidableEq, Repr

/-- `lease_decision`. -/
def leaseDecision (hasOwner takeover : Bool) : Lease :=
  match hasOwner, takeover with
  | false, _ => .accept
  | true, true => .takeover
  | true, false => .busy

namespace Sys

variable (env : Env) (s : Sys) (c : ConnId)

/-! ## Reading -/

/-- What `read_line_limited` finds in the bytes received on connection `c`. -/
def readLine : Option (ReadLine × List UInt8) :=
  readLineLimited MAX_LINE (s.conns c).buf ((s.conns c).closed && (s.conns c).sock.isEmpty)

/-- A blocked `read_until` gets `n` more bytes from the socket. -/
def refill (n : Nat) : Option Sys :=
  if s.readLine c = none ∧ 0 < n ∧ n ≤ (s.conns c).sock.length then
    some (s.modConn c fun k => { k with buf := k.buf ++ k.sock.take n, sock := k.sock.drop n })
  else none

/-- The bytes left for the next read. -/
def setBuf (rest : List UInt8) : Sys := s.modConn c fun k => { k with buf := rest }

/-! ## Until the lease -/

/-- The peer credential gate and the `try_clone`s. -/
def authStep : Answer → Option Sys
  | .done =>
    match (s.conns c).uid with
    | some uid => some (s.setPc c (if env.auth.allows uid then .readHello else .closed))
    | none => some (s.setPc c .closed)
  | .failed => some (s.setPc c .closed)
  | _ => none

/-- An accepted hello takes its connection id. -/
def takeId (takeover : Bool) : Sys :=
  { s with nextId := s.nextId + 1 }.modConn c fun k =>
    { k with id := s.nextId, pc := .lease takeover }

/-- `read_hello`, once the first line is complete. -/
def readHelloLine : ReadLine → Sys
  | .eof | .err _ => s.setPc c .closed
  | .line l =>
    match decodeCmd env.fromStr l with
    | .ok (.hello proto takeover) =>
      if proto ≠ PROTO_VERSION then
        s.setPc c (.refuse (.error "bad_proto" ("unsupported proto " ++ toString proto.toNat)))
      else s.takeId c takeover
    | .ok _ => s.setPc c (.refuse (.error "bad_proto" "expected hello first"))
    | .error e => s.setPc c (.refuse (.error "bad_proto" ("malformed hello: " ++ e)))

/-- `read_hello`. `failed` includes the hello timeout. -/
def readHelloStep : Answer → Option Sys
  | .refill n => s.refill c n
  | .failed => some (s.setPc c .closed)
  | .done => (s.readLine c).map fun (rl, rest) => (s.setBuf c rest).readHelloLine env c rl
  | _ => none

/-- Connection `c` owns the lease. -/
def setOwner : Sys :=
  { s with owner := some ⟨(s.conns c).id, c⟩ }.modConn c fun k => { k with granted := true }

/-- The displaced owner is told that it was replaced. -/
def kick (old : ConnId) : Sys := s.modConn old fun k => { k with kicked := true }

/-- The lease: one critical section. -/
def leaseStep (takeover : Bool) : Option Sys :=
  s.lockSt <| some <|
    match leaseDecision s.owner.isSome takeover, s.owner with
    | .busy, _ => s.setPc c (.refuse (.busy true))
    | .takeover, some old => ((s.kick old.conn).setOwner c).setPc c (.kickWrite old.conn)
    | _, _ => (s.setOwner c).setPc c .helloSnap

/-! ## From the lease to the command loop -/

/-- The courtesy `kicked` write, skipped when the old writer is busy. -/
def kickWriteStep (old : ConnId) : Answer → Option Sys
  | .done => some ((s.write old ⟨.kicked, none⟩).setPc c (.kickShutdown old))
  | .failed => some (s.setPc c (.kickShutdown old))
  | _ => none

/-- `shutdown(Both)` on the old socket. How much of what it had already received
can still be read is up to the operating system. -/
def kickShutdownStep (old : ConnId) : Answer → Option Sys
  | .keep n =>
    some ((s.modConn old fun k => { k with closed := true, sock := k.sock.take n }).setPc c
      .helloSnap)
  | _ => none

/-- The snapshot of the hello reply. -/
def helloSnapStep : Option Sys :=
  s.lockSt <| some <|
    let (core, _, rpcPort) := s.coreSnapshot
    s.setPc c (.helloWrite ⟨.hello PROTO_VERSION env.version core rpcPort, s.report⟩)

/-! ## The command loop -/

/-- `run_command_loop`: the dispatch of one line. -/
def loopLine : ReadLine → Sys
  | .eof | .err _ => s.setPc c .ended
  | .line l =>
    if (trim l).isEmpty then s
    else match decodeCmd env.fromStr l with
      | .ok (.hello ..) => s.setPc c (.reply ⟨.error "bad_proto" "duplicate hello", none⟩)
      | .ok .start => s.setPc c .startLock
      | .ok .status => s.setPc c .statusSnap
      | .ok .stop => s.setPc c (.stopLock .requested)
      | .error e => s.setPc c (.reply ⟨.error "bad_request" e, none⟩)

/-- `run_command_loop`: the read at the top of the loop. -/
def loopStep : Answer → Option Sys
  | .refill n => s.refill c n
  | .failed => some (s.setPc c .ended)
  | .done => (s.readLine c).map fun (rl, rest) => (s.setBuf c rest).loopLine env c rl
  | _ => none

/-- The snapshot of a status reply. -/
def statusSnapStep : Option Sys :=
  s.lockSt <| some <|
    let (core, pid, rpcPort) := s.coreSnapshot
    s.setPc c (.reply ⟨.status core pid rpcPort, s.report⟩)

/-! ## After the loop -/

/-- `kicked.load`: a displaced connection leaves the core alone. -/
def endedStep : Sys := s.setPc c (if (s.conns c).kicked then .closed else .giveUp)

/-- No owner. -/
def clearOwner : Sys := { s with owner := none }

/-- Give the lease up, if the slot still carries our id. -/
def giveUpStep : Option Sys :=
  s.lockSt <| some <|
    if s.owner.map OwnerSlot.id = some (s.conns c).id then
      s.clearOwner.setPc c (.stopLock .ownerDrop)
    else s.setPc c (.stopLock .ownerDrop)

/-- One call of the sweep of the teardown. `cleanup_routes` does nothing. -/
def connSweep (sw : Sweep) (hook : Option HookId) (ans : Answer) : Option Sys :=
  (sweepStep env s sw ans).map fun
    | (s', some sw') => s'.setPc c (.sweep sw' hook)
    | (s', none) => s'.setPc c (.join hook)

/-- `HookHandle::join`, if `stop(OwnerDrop)` returned a handle. -/
def joinStep : Option HookId → Option Sys
  | none => some (s.setPc c .exit)
  | some h => if (s.hooks h).pc.isFinished then some (s.setPc c .exit) else none

/-- `std::process::exit(0)`. -/
def exit (by' : Exiter) : Sys := { s with exited := some by' }

/-- A step of the thread of connection `c`. -/
def connStep (ans : Answer) : Option Sys :=
  match (s.conns c).pc with
  | .auth => s.authStep env c ans
  | .readHello => s.readHelloStep env c ans
  | .refuse ev => some ((s.write c ⟨ev, none⟩).setPc c .closed)
  | .lease takeover => s.leaseStep c takeover
  | .kickWrite old => s.kickWriteStep c old ans
  | .kickShutdown old => s.kickShutdownStep c old ans
  | .helloSnap => s.helloSnapStep env c
  | .helloWrite l => some ((s.write c l).setPc c .loop)
  | .loop => s.loopStep env c ans
  | .reply l => some ((s.write c l).setPc c .loop)
  | .startLock => s.startLock env c ans
  | .spawnMonitor g => some (s.spawnMonitor c g)
  | .upHook g => s.upHook env c g ans
  | .statusSnap => s.statusSnapStep c
  | .stopLock r => s.stopLock c r
  | .stopWait r g => s.stopWake c g r
  | .stopHook r g => s.stopHook env c g r ans
  | .ended => some (s.endedStep c)
  | .giveUp => s.giveUpStep c
  | .sweep sw hook => s.connSweep env c sw hook ans
  | .join hook => s.joinStep c hook
  | .exit => some (s.exit (.conn c))
  | .closed => none

end Sys

end EasyTierMac.Supervisor
