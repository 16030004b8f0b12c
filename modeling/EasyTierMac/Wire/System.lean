import EasyTierMac.Bridge.SocketView
import EasyTierMac.Supervisor.ServeView
import EasyTierMac.Rust.Utf8

/-!
# The client and the supervisor over a socket

`Link` is one supervisor client, the supervisor, and the socket between them: two FIFO
byte streams, of which any number of bytes can be in flight. Both sides take every step
that they take alone, in any order; other peers of the supervisor come and go. Only bytes
that the other side wrote arrive (`up`, `down`).

The rest of the state is ghost. The client's command lines are numbered off against the
lines that the command loop reads (`inbox`, `handling`), and the lines that the supervisor
writes against the lines that the client reads (`written`, `arriving`). `done` lists the
requests that a line completed.
-/

namespace EasyTierMac.Wire

open Rust (Text toUtf8 trim)
open Supervisor (ConnId Sys ReadLine)
open Bridge (Client Request Reply started lineRead completes)
open Transition (System)

structure Env where
  client : Bridge.ClientEnv
  sup : Supervisor.Env
  /-- `serde_json::to_string` for the supervisor's `Event`. -/
  toString : Supervisor.Event → Text

/-- The bytes of `encode_event`. -/
def Env.eventLine (env : Env) (ev : Supervisor.Event) : List UInt8 :=
  toUtf8 (Supervisor.encodeEvent env.toString ev)

/-- The bytes of `encode_cmd`. -/
def Env.cmdLine (env : Env) (cmd : Bridge.Cmd) : List UInt8 :=
  toUtf8 (Bridge.encodeCmd env.client.codec cmd)

/-! ## Two mirrors of one protocol -/

def mirrorCore : Supervisor.CoreState → Bridge.CoreState
  | .stopped => .stopped
  | .running => .running

/-- An event of the supervisor in the client's types. -/
def mirror : Supervisor.Event → Bridge.Event
  | .hello proto version core rpcPort => .hello proto version (mirrorCore core) rpcPort
  | .coreStarted pid rpcPort => .coreStarted pid rpcPort
  | .status core pid rpcPort => .status (mirrorCore core) pid rpcPort
  | .coreStopped reason => .coreStopped reason
  | .coreExited code signal => .coreExited code signal
  | .error code msg => .error code msg
  | .busy owner => .busy owner
  | .kicked => .kicked

/-- What `serde_json` makes of the protocol types: every value is one short line, and no
part of an object is an object, but for the blanks around it. -/
structure Json (env : Env) : Prop where
  event_line : ∀ ev, '\n' ∉ env.toString ev
  cmd_line : ∀ cmd, '\n' ∉ env.client.codec.toString cmd
  cmd_blank : ∀ cmd, (trim (Bridge.encodeCmd env.client.codec cmd)).isEmpty = false
  cmd_length : ∀ cmd, (env.cmdLine cmd).length ≤ Supervisor.MAX_LINE
  event_part : ∀ {ev : Supervisor.Event} {before l after : List UInt8} {ev' : Bridge.Event},
    env.eventLine ev = before ++ (l ++ after) → Bridge.lineEvent env.client.codec l = some ev' →
      before = [] ∧ ev' = mirror ev

/-! ## State -/

/-- A line of the supervisor, and the request whose command line it was processing. -/
structure Written where
  ev : Supervisor.Event
  request : Option Request
  deriving DecidableEq

/-- A request that a line completed. The line comes with its place in `written`. -/
structure Completion where
  req : Request
  line : Option (Written × Nat)
  reply : Reply
  deriving DecidableEq

structure Link where
  client : Client
  sup : Sys := {}
  /-- The supervisor's end of the current socket. -/
  conn : ConnId := 0
  /-- Bytes on their way to the supervisor. -/
  up : List UInt8 := []
  /-- Bytes on their way to the client. -/
  down : List UInt8 := []
  /-- Requests whose command line the supervisor has not read yet. -/
  inbox : List Request := []
  /-- The request whose command line the supervisor is processing. -/
  handling : Option Request := none
  /-- The command lines that the supervisor has read. -/
  reads : List (Option Request × Text) := []
  /-- The lines that were written to the client. -/
  written : List Written := []
  /-- Lines that the client has not read yet. -/
  arriving : List (Written × Nat) := []
  done : List Completion := []

namespace Link

variable (env : Env) (s : Link)

/-! ## Steps -/

/-- The client has taken step `a` to `client`. -/
def clientDo (a : Bridge.Action) (client : Client) : Link :=
  let sent := (started s.client client).toList
  let done := (lineRead s.client a).bind (completes env.client.codec s.client)
  { s with
    client
    up := s.up ++ sent.flatMap fun req => env.cmdLine req.cmd
    inbox := s.inbox ++ sent
    arriving := if (lineRead s.client a).isSome then s.arriving.tail else s.arriving
    done := s.done ++ (done.map fun d => ⟨d.1, s.arriving.head?, d.2⟩).toList }

/-- The thread of the connection takes the step. -/
def own (c : ConnId) : Supervisor.Action → Bool
  | .conn d _ => d == c
  | _ => false

/-- The line that the command loop reads in the step to `sup`. -/
def taken (sup : Sys) : Option Text :=
  if (s.sup.conns s.conn).pc.serving = .loop ∧ (sup.conns s.conn).pc.serving = .handling then
    match s.sup.readLine s.conn with
    | some (.line l, _) => some l
    | _ => none
  else none

/-- The lines that the step to `sup` writes to the client. -/
def said (a : Supervisor.Action) (sup : Sys) : List Written :=
  ((sup.conns s.conn).out.drop (s.sup.conns s.conn).out.length).map fun l =>
    ⟨l.ev, if own s.conn a then s.handling else none⟩

/-- The supervisor has taken step `a` to `sup`, while the client has its socket. -/
def supDo (a : Supervisor.Action) (sup : Sys) : Link :=
  let said := s.said a sup
  let taken := s.taken sup
  { s with
    sup
    down := s.down ++ said.flatMap fun w => env.eventLine w.ev
    inbox := if taken.isSome then s.inbox.tail else s.inbox
    handling := if taken.isSome then s.inbox.head?
      else if (sup.conns s.conn).pc.serving = .handling then s.handling else none
    reads := s.reads ++ (taken.map fun l => (s.inbox.head?, l)).toList
    written := s.written ++ said
    arriving := s.arriving ++ said.zipIdx s.written.length }

/-- The client connects, and the supervisor accepts: a fresh socket, on which the client
writes its hello. -/
def connectDo (client : Client) (sup : Sys) : Link :=
  { s with
    client
    sup
    conn := s.sup.nConns
    up := env.cmdLine (.hello Bridge.PROTO_VERSION s.client.nextTakeover)
    down := []
    inbox := []
    handling := none
    arriving := [] }

end Link

inductive Action
  /-- A step of the client. -/
  | client (a : Bridge.Action)
  /-- A step of the supervisor. -/
  | sup (a : Supervisor.Action)
  /-- The client connects, as the peer with this uid. -/
  | connect (uid : Option UInt32)
  /-- `n` bytes arrive at the supervisor. -/
  | up (n : Nat)
  /-- `n` bytes arrive at the client. -/
  | down (n : Nat)

/-- Bytes arrive on connection `c`. -/
def feeds (c : ConnId) : Supervisor.Action → Bool
  | .arrive d _ => d == c
  | _ => false

def step (env : Env) (s : Link) : Action → Option Link
  | .client (.connect true) | .client (.arrive _) => none
  | .client a => (Bridge.step env.client s.client a).map (s.clientDo env a)
  | .sup a =>
    if s.client.hasSocket = true then
      if feeds s.conn a then none else (Supervisor.step env.sup s.sup a).map (s.supDo env a)
    else (Supervisor.step env.sup s.sup a).map fun sup => { s with sup }
  | .connect uid =>
    (Bridge.step env.client s.client (.connect true)).bind fun client =>
      (Supervisor.step env.sup s.sup (.accept uid)).map (s.connectDo env client)
  | .up n =>
    (Supervisor.step env.sup s.sup (.arrive s.conn (s.up.take n))).map fun sup =>
      { s with sup, up := s.up.drop n }
  | .down n =>
    (Bridge.step env.client s.client (.arrive (s.down.take n))).map fun client =>
      { s with client, down := s.down.drop n }

def Link.init (env : Env) : Link := { client := .init env.client }

/-- The client and the supervisor over a socket. -/
def link (env : Env) : System Link Action := .ofStep (.init env) (step env)

end EasyTierMac.Wire
