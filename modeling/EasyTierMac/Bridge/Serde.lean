import EasyTierMac.Json.Object
import EasyTierMac.Bridge.Proto

/-!
# The protocol types as JSON, on the client's side (`proto.rs`)

What `derive(Serialize)` makes of `Cmd` and `derive(Deserialize)` of `Event`. The client
reads missing fields of most events as their defaults, and an unknown event as `unknown`.
-/

namespace EasyTierMac.Bridge

open Json (tagged untag required defaulted ofU32 asU16 asU32 asI32 asBool asString asOption)

def CoreState.deserialize : Json → Option CoreState
  | .str "stopped" => some .stopped
  | .str "running" => some .running
  | _ => none

/-- `#[serde(tag = "cmd", rename_all = "snake_case")]`. -/
def Cmd.serialize : Cmd → Json
  | .hello proto takeover =>
    tagged "cmd" "hello" [("proto", ofU32 proto), ("takeover", .bool takeover)]
  | .start => tagged "cmd" "start" []
  | .status => tagged "cmd" "status" []
  | .stop => tagged "cmd" "stop" []

/-- `#[serde(tag = "event", rename_all = "snake_case")]`. -/
def Event.deserialize (v : Json) : Option Event := do
  let (variant, ms) ← untag "event" v
  match variant with
  | "hello" => do
    let proto ← required "proto" asU32 ms
    let version ← defaulted "version" asString "" ms
    let core ← required "core" CoreState.deserialize ms
    let rpcPort ← defaulted "rpc_port" (asOption asU16) none ms
    some (.hello proto version core rpcPort)
  | "core_started" => do
    let pid ← required "pid" asI32 ms
    let rpcPort ← required "rpc_port" asU16 ms
    some (.coreStarted pid rpcPort)
  | "status" => do
    let core ← required "core" CoreState.deserialize ms
    let pid ← defaulted "pid" (asOption asI32) none ms
    let rpcPort ← defaulted "rpc_port" (asOption asU16) none ms
    some (.status core pid rpcPort)
  | "core_stopped" => do
    let reason ← defaulted "reason" asString "" ms
    some (.coreStopped reason)
  | "core_exited" => do
    let code ← defaulted "code" (asOption asI32) none ms
    let signal ← defaulted "signal" (asOption asI32) none ms
    some (.coreExited code signal)
  | "error" => do
    let code ← defaulted "code" asString "" ms
    let msg ← defaulted "msg" asString "" ms
    some (.error code msg)
  | "busy" => do
    let owner ← defaulted "owner" asBool false ms
    some (.busy owner)
  | "kicked" => some .kicked
  | _ => some .unknown

/-- `serde_json` for both types. What it says of a text that it rejects is `why`. -/
def serdeCodec (why : Rust.Text → String) : Codec where
  toString cmd := cmd.serialize.print
  fromStr t :=
    match (Json.parse t).bind Event.deserialize with
    | some ev => .ok ev
    | none => .error (why t)

example : Event.deserialize (.obj [("x", .int 1), ("event", .str "future_thing")])
    = some .unknown := by
  decide
example : Event.deserialize (.obj [("event", .str "hello"), ("core", .str "stopped"),
    ("proto", .int 1)]) = some (.hello 1 "" .stopped none) := by
  decide

/-- The fields of a `hello`, wherever they stand. -/
theorem Event.deserialize_hello {ms : List (String × Json)} {proto : UInt32} {version : String}
    {core : CoreState} {rpcPort : Option UInt16} (htag : "event" ∉ Json.names ms)
    (hproto : required "proto" asU32 ms = some proto)
    (hversion : defaulted "version" asString "" ms = some version)
    (hcore : required "core" CoreState.deserialize ms = some core)
    (hport : defaulted "rpc_port" (asOption asU16) none ms = some rpcPort) :
    Event.deserialize (tagged "event" "hello" ms) = some (.hello proto version core rpcPort) := by
  unfold Event.deserialize
  rw [Json.untag_tagged _ htag]
  simp only [Option.bind_eq_bind, Option.bind_some, hproto, hversion, hcore, hport]

theorem Cmd.exact_serialize (cmd : Cmd) : cmd.serialize.Exact := by
  cases cmd with
  | hello proto takeover => exact ⟨trivial, trivial, trivial, trivial⟩
  | start => exact ⟨trivial, trivial⟩
  | status => exact ⟨trivial, trivial⟩
  | stop => exact ⟨trivial, trivial⟩

/-- Every command is an object. -/
theorem Cmd.serialize_obj (cmd : Cmd) : ∃ ms, cmd.serialize = .obj ms := by
  cases cmd <;> exact ⟨_, rfl⟩

end EasyTierMac.Bridge
