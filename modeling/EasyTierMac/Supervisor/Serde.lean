import EasyTierMac.Json.Object
import EasyTierMac.Supervisor.Proto

/-!
# The protocol types as JSON, on the supervisor's side (`proto.rs`)

What `derive(Serialize)` makes of `Event` and `derive(Deserialize)` of `Cmd`: internally
tagged, with names in snake case. Serde would also take an array in place of a tagged
object, which neither side writes.
-/

namespace EasyTierMac.Supervisor

open Json (tagged untag required defaulted ofU16 ofU32 ofI32 ofOption asU32 asBool)

def CoreState.serialize : CoreState → Json
  | .stopped => .str "stopped"
  | .running => .str "running"

/-- `#[serde(tag = "event", rename_all = "snake_case")]`. -/
def Event.serialize : Event → Json
  | .hello proto version core rpcPort => tagged "event" "hello"
      [("proto", ofU32 proto), ("version", .str version), ("core", core.serialize),
        ("rpc_port", ofOption ofU16 rpcPort)]
  | .coreStarted pid rpcPort => tagged "event" "core_started"
      [("pid", ofI32 pid), ("rpc_port", ofU16 rpcPort)]
  | .status core pid rpcPort => tagged "event" "status"
      [("core", core.serialize), ("pid", ofOption ofI32 pid), ("rpc_port", ofOption ofU16 rpcPort)]
  | .coreStopped reason => tagged "event" "core_stopped" [("reason", .str reason)]
  | .coreExited code signal => tagged "event" "core_exited"
      [("code", ofOption ofI32 code), ("signal", ofOption ofI32 signal)]
  | .error code msg => tagged "event" "error" [("code", .str code), ("msg", .str msg)]
  | .busy owner => tagged "event" "busy" [("owner", .bool owner)]
  | .kicked => tagged "event" "kicked" []

/-- `serde_json::to_string`. -/
def Event.toString (ev : Event) : Rust.Text := ev.serialize.print

/-- `#[serde(tag = "cmd", rename_all = "snake_case")]`. -/
def Cmd.deserialize (v : Json) : Option Cmd := do
  let (variant, ms) ← untag "cmd" v
  match variant with
  | "hello" => do
    let proto ← required "proto" asU32 ms
    let takeover ← defaulted "takeover" asBool false ms
    some (.hello proto takeover)
  | "start" => some .start
  | "status" => some .status
  | "stop" => some .stop
  | _ => none

/-- `serde_json::from_str`. What it says of a text that it rejects is `why`. -/
def Cmd.fromStr (why : Rust.Text → String) (t : Rust.Text) : Except String Cmd :=
  match (Json.parse t).bind Cmd.deserialize with
  | some cmd => .ok cmd
  | none => .error (why t)

example : String.ofList (Event.coreExited none (some 9)).toString
    = "\x7b\"event\":\"core_exited\",\"code\":null,\"signal\":9\x7d" := by
  decide

/-- The fields of a `hello`, wherever they stand. -/
theorem Cmd.deserialize_hello {ms : List (String × Json)} {proto : UInt32} {takeover : Bool}
    (htag : "cmd" ∉ Json.names ms) (hproto : required "proto" asU32 ms = some proto)
    (htakeover : defaulted "takeover" asBool false ms = some takeover) :
    Cmd.deserialize (tagged "cmd" "hello" ms) = some (.hello proto takeover) := by
  unfold Cmd.deserialize
  rw [Json.untag_tagged _ htag]
  simp only [Option.bind_eq_bind, Option.bind_some, hproto, htakeover]

theorem Event.exact_serialize (ev : Event) : ev.serialize.Exact := by
  have hcore : ∀ core : CoreState, core.serialize.Exact := fun core => by cases core <;> trivial
  have hu16 : ∀ o : Option UInt16, (ofOption ofU16 o).Exact := Json.exact_ofOption fun _ => trivial
  have hi32 : ∀ o : Option Int32, (ofOption ofI32 o).Exact := Json.exact_ofOption fun _ => trivial
  cases ev with
  | hello proto version core rpcPort => exact ⟨trivial, trivial, trivial, hcore _, hu16 _, trivial⟩
  | coreStarted pid rpcPort => exact ⟨trivial, trivial, trivial, trivial⟩
  | status core pid rpcPort => exact ⟨trivial, hcore _, hi32 _, hu16 _, trivial⟩
  | coreStopped reason => exact ⟨trivial, trivial, trivial⟩
  | coreExited code signal => exact ⟨trivial, hi32 _, hi32 _, trivial⟩
  | error code msg => exact ⟨trivial, trivial, trivial, trivial⟩
  | busy owner => exact ⟨trivial, trivial, trivial⟩
  | kicked => exact ⟨trivial, trivial⟩

/-- Every event is an object. -/
theorem Event.serialize_obj (ev : Event) : ∃ ms, ev.serialize = .obj ms := by
  cases ev <;> exact ⟨_, rfl⟩

end EasyTierMac.Supervisor
