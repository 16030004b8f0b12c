import EasyTierMac.Rust.Str

/-!
# Control protocol v1 and its line framing (`proto.rs`, `server.rs`)

Requests (`Cmd`), replies and pushes (`Event`), and `readLineLimited`, the
length-limited read both phases of a connection share. `serde_json` is not
part of the repository: its decoder of the tagged `Cmd` type is the parameter
`fromStr` of `decodeCmd`.
-/

namespace EasyTierMac.Supervisor

open Rust (Text trim fromUtf8)

/-- Protocol version spoken by the supervisor. -/
def PROTO_VERSION : UInt32 := 1

/-- Coarse core state as reported on the wire. -/
inductive CoreState
  | stopped
  | running
  deriving DecidableEq, Repr

/-- Client requests. -/
inductive Cmd
  | hello (proto : UInt32) (takeover : Bool)
  | start
  | status
  | stop
  deriving DecidableEq, Repr

/-- Supervisor replies and pushes. -/
inductive Event
  | hello (proto : UInt32) (version : String) (core : CoreState) (rpcPort : Option UInt16)
  | coreStarted (pid : Int32) (rpcPort : UInt16)
  | status (core : CoreState) (pid : Option Int32) (rpcPort : Option UInt16)
  | coreStopped (reason : String)
  | coreExited (code signal : Option Int32)
  | error (code msg : String)
  | busy (owner : Bool)
  | kicked
  deriving DecidableEq, Repr

/-- The hello reply. -/
def Event.isHello : Event → Bool
  | .hello .. => true
  | _ => false

/-- `core_exited` or `core_stopped`: the end of a core generation. -/
def Event.isEnd : Event → Bool
  | .coreStopped _ | .coreExited .. => true
  | _ => false

/-- `decode_cmd`: whitespace around the object is tolerated. -/
def decodeCmd (fromStr : Text → Except String Cmd) (line : Text) : Except String Cmd :=
  fromStr (trim line)

/-- `encode_event`, over `serde_json::to_string`: a single line. -/
def encodeEvent (toString : Event → Text) (ev : Event) : Text := toString ev ++ ['\n']

/-- Hard cap on a single control line. -/
def MAX_LINE : Nat := 64 * 1024

/-- What `read_line_limited` returns. -/
inductive ReadLine
  /-- `Ok(None)`: clean end of stream. -/
  | eof
  /-- `Ok(Some(line))`, newline included. -/
  | line (l : Text)
  /-- `Err`: over the limit, unterminated, or not UTF-8. -/
  | err (msg : String)
  deriving DecidableEq, Repr

/-- Split after the first `\n`, if there is one. -/
def splitLine : List UInt8 → Option (List UInt8 × List UInt8)
  | [] => none
  | b :: bs =>
    if b = 0x0A then some ([b], bs) else (splitLine bs).map fun (l, r) => (b :: l, r)

/-- `read_line_limited` on the bytes received so far; `eof` says the stream ends
after them. The result carries the bytes left for the next call. `none`: the
call is still blocked in `read_until`, which wants more bytes. -/
def readLineLimited (max : Nat) (bytes : List UInt8) (eof : Bool) :
    Option (ReadLine × List UInt8) :=
  -- `take(max)` is all that `read_until` sees
  match splitLine (bytes.take max) with
  | some (l, r) =>
    let rest := r ++ bytes.drop max
    match fromUtf8 l with
    | some t => some (.line t, rest)
    | none => some (.err "control line is not valid UTF-8", rest)
  | none =>
    if (bytes.take max).isEmpty && (eof || max == 0) then some (.eof, bytes)
    else if max ≤ bytes.length || eof then
      some (.err "control line exceeds limit or missing newline", bytes.drop max)
    else none

example : readLineLimited MAX_LINE [0x61, 0x0A, 0x62] false = some (.line ['a', '\n'], [0x62]) := by
  decide
example : readLineLimited 1 [0x61, 0x0A] false
    = some (.err "control line exceeds limit or missing newline", [0x0A]) := by
  decide

end EasyTierMac.Supervisor
