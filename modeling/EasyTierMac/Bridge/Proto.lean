import EasyTierMac.Rust.Str

/-!
# The client side of control protocol v1 (`proto.rs`)

The bridge has its own mirror of the protocol types, with a catch-all for events it
does not know. `serde_json` is not part of the repository: what it makes of the tagged
types is the parameter `Codec`.
-/

namespace EasyTierMac.Bridge

open Rust (Text trim)

/-- Protocol version spoken by this client. -/
def PROTO_VERSION : UInt32 := 1

/-- Coarse core lifecycle state as reported on the wire. -/
inductive CoreState
  | stopped
  | running
  deriving DecidableEq, Repr

/-- Client to supervisor requests. -/
inductive Cmd
  | hello (proto : UInt32) (takeover : Bool)
  | start
  | status
  | stop
  deriving DecidableEq, Repr

/-- Supervisor to client replies and pushes. -/
inductive Event
  | hello (proto : UInt32) (version : String) (core : CoreState) (rpcPort : Option UInt16)
  | coreStarted (pid : Int32) (rpcPort : UInt16)
  | status (core : CoreState) (pid : Option Int32) (rpcPort : Option UInt16)
  | coreStopped (reason : String)
  | coreExited (code signal : Option Int32)
  | error (code msg : String)
  | busy (owner : Bool)
  | kicked
  /-- An event kind of a newer supervisor. -/
  | unknown
  deriving DecidableEq, Repr

/-- `serde_json::to_string` for `Cmd` and `serde_json::from_str` for `Event`. -/
structure Codec where
  toString : Cmd → Text
  fromStr : Text → Except String Event

/-- `encode_cmd`: a single line. -/
def encodeCmd (codec : Codec) (cmd : Cmd) : Text := codec.toString cmd ++ ['\n']

/-- `decode_event`: whitespace around the object is tolerated. -/
def decodeEvent (codec : Codec) (line : Text) : Except String Event :=
  codec.fromStr (trim line)

end EasyTierMac.Bridge
