import EasyTierMac.Bridge.Session
import EasyTierMac.Transition
import Mathlib.Logic.Function.Basic

/-!
# The supervisor client (`supervisor_client.rs`)

`Client` is one `SupervisorClient`: the driver task (`run_driver`,
`connect_and_hello`, `run_session`), the callers of `start`, `stop` and `status` with
their oneshot channels, the request channel, and the three `Notify` permits. The
driver is a program counter, one constructor for each point at which it awaits; where it
awaits a `select!`, each branch is an action. A branch that loses is dropped, and with a
dropped `read_line` future go the bytes that it holds (`Stream.cut`).

The client is never dropped while its driver runs: `etb_shutdown` awaits the driver
first. So `cmd_rx.recv()` does not return `None`.
-/

namespace EasyTierMac.Bridge

open Function (update)
open Rust (Text fromUtf8)
open Transition (System)

/-- Milliseconds. -/
def REQUEST_TIMEOUT : Nat := 20 * 1000

/-- The capacity of the request channel. -/
def CHANNEL : Nat := 16

/-- `SupervisorConfig`, without the socket path. -/
structure SupervisorConfig where
  takeover : Bool := false
  initialBackoff : Nat := 1000
  maxBackoff : Nat := 30 * 1000

structure ClientEnv where
  config : SupervisorConfig
  codec : Codec

/-! ## State -/

/-- The oneshot channel of a request, seen from its receiver. -/
inductive Slot
  | empty
  | filled (r : Reply)
  /-- The sender was dropped. -/
  | dropped
  deriving DecidableEq

/-- Where a caller is in `dispatch`. -/
inductive CallerPc
  | absent
  /-- In `cmd_tx.send`. -/
  | sending
  /-- In `timeout(REQUEST_TIMEOUT, rx)`. -/
  | waiting (deadline : Nat)
  | returned (r : Reply)
  deriving DecidableEq

structure Caller where
  kind : Kind := .start
  pc : CallerPc := .absent
  slot : Slot := .empty
  deriving DecidableEq

/-- Where the driver awaits. -/
inductive DriverPc
  /-- In `UnixStream::connect`. -/
  | connect
  /-- Writing the hello. -/
  | sendHello
  /-- Reading the reply to it. -/
  | readHello
  /-- In the `select!` of `run_session`. -/
  | session
  /-- In `run_session`, writing the command of a request. -/
  | writing (req : Request)
  /-- Another owner holds the lease. -/
  | busy
  /-- Backing off until `due`. -/
  | pause (due : Nat)
  | stopped
  deriving DecidableEq, Repr

/-- In `run_session`. -/
def DriverPc.inSession : DriverPc → Bool
  | .session | .writing _ => true
  | _ => false

/-- What happened in the session so far (ghost). -/
structure SessionLog where
  /-- All bytes that were on its stream. -/
  stream : List UInt8 := []
  /-- The lines `read_line` returned. -/
  lines : List (List UInt8) := []
  /-- The events passed to `dispatch_event`. -/
  dispatched : List Event := []
  deriving DecidableEq, Repr

structure Client where
  driver : DriverPc := .connect
  nextTakeover : Bool
  backoff : Nat
  stream : Stream := {}
  pending : Option Request := none
  /-- The request channel. -/
  queue : List Request := []
  callers : ReqId → Caller := fun _ => {}
  nCalls : Nat := 0
  /-- The permits of the `Notify`s. -/
  takeover : Bool := false
  reconnect : Bool := false
  shutdown : Bool := false
  connected : Bool := false
  now : Nat := 0
  /-- What was sent on the event channel. -/
  events : List SupervisorEvent := []
  /-- The commands written to the socket, with the requests they came from (ghost). -/
  written : List (ReqId × Cmd) := []
  log : SessionLog := {}

/-- What `write_all` and `flush` of a command return. -/
inductive Wrote
  | ok
  | writeErr (e : String)
  | flushErr (e : String)
  deriving DecidableEq, Repr

/-- The message that the request fails with. -/
def Wrote.failure : Wrote → Option String
  | .ok => none
  | .writeErr e => some ("write failed: " ++ e)
  | .flushErr e => some ("flush failed: " ++ e)

namespace Client

variable (env : ClientEnv) (s : Client)

/-! ## Updates -/

def modCaller (id : ReqId) (f : Caller → Caller) : Client :=
  { s with callers := update s.callers id (f (s.callers id)) }

/-- Move a caller. -/
def setCaller (id : ReqId) (pc : CallerPc) : Client := s.modCaller id fun k => { k with pc := pc }

/-- Use the oneshot sender of a request: send on it, or drop it. -/
def setSlot (req : Request) (slot : Slot) : Client :=
  s.modCaller req.id fun k => { k with slot := slot }

/-- Drop requests, and their oneshot senders with them. -/
def dropAll : List Request → Client → Client
  | [], s => s
  | req :: reqs, s => dropAll reqs (s.setSlot req .dropped)

def setDriver (pc : DriverPc) : Client := { s with driver := pc }

def setStream (st : Stream) : Client := { s with stream := st }

/-- Send on the event channel. -/
def emit (evs : List SupervisorEvent) : Client := { s with events := s.events ++ evs }

/-! ## Callers: `dispatch` -/

/-- `start`, `stop` or `status` is called. -/
def call (kind : Kind) : Client :=
  { s with callers := update s.callers s.nCalls ⟨kind, .sending, .empty⟩, nCalls := s.nCalls + 1 }

/-- `cmd_tx.send`: the channel has room, or its receiver is gone. -/
def send (id : ReqId) : Option Client :=
  if (s.callers id).pc = .sending then
    if s.driver = .stopped then
      some (s.setCaller id (.returned (.error "supervisor client stopped")))
    else if s.queue.length < CHANNEL then
      some ({ s with queue := s.queue ++ [(⟨id, (s.callers id).kind⟩ : Request)] }.setCaller id
        (.waiting (s.now + REQUEST_TIMEOUT)))
    else none
  else none

/-- `rx` is ready before the timeout. -/
def receive (id : ReqId) : Option Client :=
  match (s.callers id).pc, (s.callers id).slot with
  | .waiting _, .filled r => some (s.setCaller id (.returned r))
  | .waiting _, .dropped =>
    some (s.setCaller id (.returned (.error "supervisor disconnected before reply")))
  | _, _ => none

/-- The timeout elapses, and `rx` is not ready. -/
def timeout (id : ReqId) : Option Client :=
  match (s.callers id).pc, (s.callers id).slot with
  | .waiting deadline, .empty =>
    if deadline ≤ s.now then
      some (s.setCaller id (.returned (.error "supervisor request timed out")))
    else none
  | _, _ => none

/-! ## The driver: attempts -/

/-- Back off before the next attempt. -/
def goPause : Client := s.setDriver (.pause (s.now + s.backoff))

/-- The attempt is over and has not led to a session. -/
def failed : Client := { s with nextTakeover := false }.goPause

/-- `run_driver` returns: the request channel is dropped. -/
def stop : Client :=
  dropAll s.queue { s with driver := .stopped, connected := false, queue := [] }

/-- `UnixStream::connect`. -/
def connectStep (ok : Bool) : Option Client :=
  if s.driver = .connect then
    some (if ok then (s.setStream {}).setDriver .sendHello else s.failed)
  else none

/-- The hello is written. -/
def helloStep (ok : Bool) : Option Client :=
  if s.driver = .sendHello then
    some (if ok then s.setDriver .readHello else s.failed)
  else none

/-- `run_driver` enters `run_session`. -/
def enterSession (version : String) (core : CoreState) (rpcPort : Option UInt16) : Client :=
  { s.emit [.connected version core rpcPort] with
    driver := .session
    nextTakeover := false
    backoff := env.config.initialBackoff
    connected := true
    pending := none
    log := { stream := s.stream.unread } }

/-- `connect_and_hello`, once the first line has been read. -/
def helloLine (line : List UInt8) : Client :=
  match line, fromUtf8 line with
  | [], _ | _, none => s.failed
  | _, some text =>
    match decodeEvent env.codec text with
    | .ok (.hello _ version core rpcPort) => s.enterSession env version core rpcPort
    | .ok (.busy owner) =>
      { s.emit [.busy owner] with nextTakeover := false }.setDriver .busy
    | .ok (.error code msg) => (s.emit [.error code msg]).failed
    | _ => s.failed

/-! ## The driver: `run_session` -/

/-- Drop the request in flight. -/
def dropPending : Client := { dropAll s.pending.toList s with pending := none }

/-- `run_session` returns, and the driver reports the disconnect. -/
def leaveSession : Client := { s.dropPending with connected := false }.emit [.disconnected]

/-- `SessionEnd::Disconnected`. -/
def disconnected : Client := s.leaveSession.goPause

/-- Send the reply of a request, if `dispatch_event` completed one. -/
def complete : Option (Request × Reply) → Client
  | some (req, r) => s.setSlot req (.filled r)
  | none => s

/-- `dispatch_event` on the state of the session. -/
def dispatch (ev : Event) : Client :=
  let out := dispatchEvent ev s.pending
  { (s.complete out.reply).emit out.events with
    pending := out.pending
    log := { s.log with dispatched := s.log.dispatched ++ [ev] } }

/-- `run_session`, once `read_line` has returned `Ok`. -/
def sessionLine (line : List UInt8) : Client :=
  match line with
  | [] => s.disconnected
  | _ =>
    let s := { s with log := { s.log with lines := s.log.lines ++ [line] } }
    match fromUtf8 line with
    | none => s.disconnected
    | some text =>
      match decodeEvent env.codec text with
      | .ok ev => s.dispatch ev
      | .error _ => s

/-- The read branch: one poll of `read_line`. -/
def pollStep : Option Client :=
  match s.driver, s.stream.poll with
  | .readHello, some (line, st) =>
    some (match line with
      | some l => (s.setStream st).helloLine env l
      | none => s.setStream st)
  | .session, some (line, st) =>
    some (match line with
      | some l => (s.setStream st).sessionLine env l
      | none => s.setStream st)
  | _, _ => none

/-- The `BufReader` reads from the socket. -/
def fillStep (n : Nat) : Option Client :=
  if s.driver = .readHello ∨ s.driver = .session then (s.stream.fill n).map s.setStream else none

/-- `read_line` returns an I/O error. -/
def readErrStep : Option Client :=
  match s.driver with
  | .readHello => some s.failed
  | .session => some s.disconnected
  | _ => none

/-- The request branch. The `read_line` future loses and is dropped. -/
def recvStep : Option Client :=
  match s.driver, s.queue with
  | .session, req :: queue =>
    let s := { s with queue := queue }.setStream s.stream.cut
    some (if s.pending.isSome then
      s.setSlot req (.filled (.error "another request is already in flight"))
    else s.setDriver (.writing req))
  | _, _ => none

/-- `write_all` and `flush` of a command return. -/
def wroteStep (res : Wrote) : Option Client :=
  match s.driver with
  | .writing req =>
    some (match res.failure with
      | none => { s with
          pending := some req
          written := s.written ++ [(req.id, req.cmd)] }.setDriver .session
      | some msg => (s.setSlot req (.filled (.error msg))).disconnected)
  | _ => none

/-! ## The driver: permits and pauses -/

/-- The shutdown branch, which every `select!` of the driver has. -/
def shutdownStep : Option Client :=
  if s.shutdown = true then
    let s := { s with shutdown := false }
    match s.driver with
    | .connect | .sendHello | .readHello | .busy | .pause _ => some s.stop
    | .session => some s.leaveSession.stop
    | .writing _ | .stopped => none
  else none

/-- The pause on `busy` ends: reconnect immediately, taking over. -/
def takeoverStep : Option Client :=
  if s.driver = .busy ∧ s.takeover = true then
    some ({ s with takeover := false, nextTakeover := true }.setDriver .connect)
  else none

/-- The next attempt after a pause. -/
def retry : Client :=
  { s with backoff := min (s.backoff * 2) env.config.maxBackoff }.setDriver .connect

/-- The pause ends early. -/
def reconnectStep : Option Client :=
  match s.driver with
  | .pause _ => if s.reconnect = true then some ({ s with reconnect := false }.retry env) else none
  | _ => none

/-- The pause is over. -/
def elapseStep : Option Client :=
  match s.driver with
  | .pause due => if due ≤ s.now then some (s.retry env) else none
  | _ => none

/-! ## The supervisor's end of the stream -/

/-- The socket is connected. -/
def hasSocket : Bool :=
  match s.driver with
  | .sendHello | .readHello | .session | .writing _ => true
  | _ => false

/-- Bytes arrive. -/
def arriveStep (bytes : List UInt8) : Option Client :=
  if s.hasSocket = true ∧ s.stream.closed = false then
    some { s with
      stream := { s.stream with sock := s.stream.sock ++ bytes }
      log := if s.driver.inSession then { s.log with stream := s.log.stream ++ bytes } else s.log }
  else none

/-- The supervisor closes the stream. -/
def hangupStep : Option Client :=
  if s.hasSocket = true then some (s.setStream { s.stream with closed := true }) else none

end Client

/-! ## The client as a transition system -/

inductive Action
  | call (kind : Kind)
  | send (id : ReqId)
  | receive (id : ReqId)
  | timeout (id : ReqId)
  | connect (ok : Bool)
  | hello (ok : Bool)
  | poll
  | fill (n : Nat)
  | readErr
  | recv
  | wrote (res : Wrote)
  | shutdown
  | takeover
  | reconnect
  | elapse
  | requestShutdown
  | requestTakeover
  | requestReconnect
  | arrive (bytes : List UInt8)
  | hangup
  | tick (d : Nat)
  deriving DecidableEq, Repr

def step (env : ClientEnv) (s : Client) (a : Action) : Option Client :=
  match a with
  | .call kind => some (s.call kind)
  | .send id => s.send id
  | .receive id => s.receive id
  | .timeout id => s.timeout id
  | .connect ok => s.connectStep ok
  | .hello ok => s.helloStep ok
  | .poll => s.pollStep env
  | .fill n => s.fillStep n
  | .readErr => s.readErrStep
  | .recv => s.recvStep
  | .wrote res => s.wroteStep res
  | .shutdown => s.shutdownStep
  | .takeover => s.takeoverStep
  | .reconnect => s.reconnectStep env
  | .elapse => s.elapseStep env
  | .requestShutdown => some { s with shutdown := true }
  | .requestTakeover => some { s with takeover := true }
  | .requestReconnect => some { s with reconnect := true }
  | .arrive bytes => s.arriveStep bytes
  | .hangup => s.hangupStep
  | .tick d => some { s with now := s.now + d }

/-- A fresh client: the driver is about to connect. -/
def Client.init (env : ClientEnv) : Client where
  nextTakeover := env.config.takeover
  backoff := env.config.initialBackoff

/-- The supervisor client. -/
def client (env : ClientEnv) : System Client Action := .ofStep (.init env) (step env)

end EasyTierMac.Bridge
