import EasyTierMac.Bridge.Proto
import EasyTierMac.Framing

/-!
# Requests, replies and the stream of a session (`supervisor_client.rs`)

`dispatchEvent` routes one decoded event: pushes go to the event channel, replies
complete the request in flight. `Stream.poll` is one poll of a `read_line` future: it
takes what the `BufReader` holds, up to the end of a line. Bytes it has taken of an
unfinished line belong to the future (`held`), and go with it when it is dropped.
-/

namespace EasyTierMac.Bridge

open Rust (Text)

/-! ## Requests -/

/-- Requests, in the order in which `dispatch` was called. -/
abbrev ReqId := Nat

/-- Reply payload for a successful `start`. -/
structure StartInfo where
  pid : Int32
  rpcPort : UInt16
  deriving DecidableEq, Repr

/-- Reply payload for `status`. -/
structure StatusInfo where
  core : CoreState
  pid : Option Int32
  rpcPort : Option UInt16
  deriving DecidableEq, Repr

/-- The variants of `Request`. -/
inductive Kind
  | start
  | stop
  | status
  deriving DecidableEq, Repr

/-- A request: `id` names the call, and with it the oneshot sender the request carries. -/
structure Request where
  id : ReqId
  kind : Kind
  deriving DecidableEq, Repr

/-- `Request::cmd`. -/
def Request.cmd (req : Request) : Cmd :=
  match req.kind with
  | .start => .start
  | .stop => .stop
  | .status => .status

/-- What `start`, `stop` and `status` return in `Ok`. -/
inductive Value
  | start (info : StartInfo)
  | stop
  | status (info : StatusInfo)
  deriving DecidableEq, Repr

abbrev Reply := Except String Value

instance : DecidableEq Reply
  | .ok a, .ok b => decidable_of_iff (a = b) (by simp)
  | .error a, .error b => decidable_of_iff (a = b) (by simp)
  | .ok _, .error _ => .isFalse (by simp)
  | .error _, .ok _ => .isFalse (by simp)

/-- Events surfaced from the driver to the app. -/
inductive SupervisorEvent
  | connected (version : String) (core : CoreState) (rpcPort : Option UInt16)
  | disconnected
  | coreStarted (pid : Int32) (rpcPort : UInt16)
  | coreStopped (reason : String)
  | coreExited (code signal : Option Int32)
  | kicked
  | busy (owner : Bool)
  | error (code msg : String)
  deriving DecidableEq, Repr

/-! ## Dispatch -/

/-- What `dispatch_event` does with an event. -/
structure Dispatch where
  /-- The request that is still in flight. -/
  pending : Option Request
  /-- What it sends on the event channel. -/
  events : List SupervisorEvent := []
  /-- The request that it completes, and how. -/
  reply : Option (Request × Reply) := none
  deriving DecidableEq

/-- `dispatch_event`. -/
def dispatchEvent (ev : Event) (pending : Option Request) : Dispatch :=
  match ev with
  | .coreExited code signal => { pending, events := [.coreExited code signal] }
  | .kicked => { pending, events := [.kicked] }
  | .busy owner => { pending, events := [.busy owner] }
  | .coreStarted pid rpcPort =>
    { pending := none
      events := [.coreStarted pid rpcPort]
      reply := pending.map fun req => (req, match req.kind with
        | .start => .ok (.start ⟨pid, rpcPort⟩)
        | _ => .error "unexpected core_started reply") }
  | .coreStopped reason =>
    { pending := none
      events := [.coreStopped reason]
      reply := pending.map fun req => (req, match req.kind with
        | .stop => .ok .stop
        | _ => .error "unexpected core_stopped reply") }
  | .status core pid rpcPort =>
    { pending := none
      reply := pending.map fun req => (req, match req.kind with
        | .status => .ok (.status ⟨core, pid, rpcPort⟩)
        | _ => .error "unexpected status reply") }
  | .error code msg =>
    match pending with
    | some req => { pending := none, reply := some (req, .error msg) }
    | none => { pending := none, events := [.error code msg] }
  -- A mid-session hello or unknown event is not expected; ignore it.
  | .hello .. | .unknown => { pending }

/-! ## The stream -/

/-- The reading half of a connection. -/
structure Stream where
  /-- Received bytes that are still in the kernel. -/
  sock : List UInt8 := []
  /-- The stream ends after `sock`. -/
  closed : Bool := false
  /-- Bytes the `BufReader` holds. -/
  buf : List UInt8 := []
  /-- Bytes of an unfinished line that the `read_line` future holds. -/
  held : List UInt8 := []
  deriving DecidableEq, Repr

namespace Stream

/-- Everything that has not been taken out of the `BufReader`. -/
def unread (st : Stream) : List UInt8 := st.buf ++ st.sock

/-- The `BufReader` is empty and reads `n` bytes from the socket. -/
def fill (st : Stream) (n : Nat) : Option Stream :=
  if st.buf = [] ∧ 0 < n ∧ n ≤ st.sock.length then
    some { st with buf := st.sock.take n, sock := st.sock.drop n }
  else none

/-- One poll of the `read_line` future: the line if it completes, where the empty line
is `Ok(0)`. The future is blocked when the `BufReader` is empty and the stream goes on. -/
def poll (st : Stream) : Option (Option (List UInt8) × Stream) :=
  if st.buf = [] then
    if st.sock = [] ∧ st.closed = true then some (some st.held, { st with held := [] }) else none
  else match Framing.splitAfter 0x0A st.buf with
    | some (l, r) => some (some (st.held ++ l), { st with buf := r, held := [] })
    | none => some (none, { st with buf := [], held := st.held ++ st.buf })

/-- The `read_line` future is dropped. -/
def cut (st : Stream) : Stream := { st with held := [] }

end Stream

end EasyTierMac.Bridge
