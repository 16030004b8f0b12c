import EasyTierMac.Bridge.Ffi
import EasyTierMac.Json.Object
import EasyTierMac.Rust.Utf8

/-!
# The events of the C interface (`ffi.rs`)

`event_to_json` writes an event in the schema of `easytier_bridge.h`: an object whose
members are sorted by their names, as `serde_json::Value` keeps them. `EventSink::emit`
hands the text to the callback as a C string.
-/

namespace EasyTierMac.Bridge

open Rust (Text toUtf8)
open Json (sorted ofU16 ofI32 ofOption)

def CoreState.serialize : CoreState → Json
  | .stopped => .str "stopped"
  | .running => .str "running"

/-- The members of the `json!` object, in the order of the source. -/
def SupervisorEvent.members : SupervisorEvent → List (String × Json)
  | .connected version core rpcPort => [("type", .str "connected"), ("version", .str version),
      ("core", core.serialize), ("rpc_port", ofOption ofU16 rpcPort)]
  | .disconnected => [("type", .str "disconnected")]
  | .coreStarted pid rpcPort =>
    [("type", .str "core_started"), ("pid", ofI32 pid), ("rpc_port", ofU16 rpcPort)]
  | .coreStopped reason => [("type", .str "core_stopped"), ("reason", .str reason)]
  | .coreExited code signal => [("type", .str "core_exited"), ("code", ofOption ofI32 code),
      ("signal", ofOption ofI32 signal)]
  | .busy owner => [("type", .str "busy"), ("owner", .bool owner)]
  | .kicked => [("type", .str "kicked")]
  | .error code msg => [("type", .str "error"), ("code", .str code), ("msg", .str msg)]

/-- `event_to_json`. -/
def eventToJson (ev : SupervisorEvent) : Json := sorted ev.members

/-- `EventSink::emit`: the bytes of the C string that the callback gets. A text with a NUL
in it is not handed on. -/
def emit (json : Text) : Option (List UInt8) :=
  if 0 ∈ toUtf8 json then none else some (toUtf8 json)

example : (eventToJson (.connected "0.1.0" .running none)).print
    = "\x7b\"core\":\"running\",\"rpc_port\":null,\"type\":\"connected\",\"version\":\"0.1.0\"\x7d".toList := by
  decide

/-! ## No event is held back -/

theorem nodup_members (ev : SupervisorEvent) : (Json.names ev.members).Nodup := by
  cases ev <;> simp [SupervisorEvent.members]

theorem exact_members (ev : SupervisorEvent) : Json.ExactMembers ev.members := by
  have hcore : ∀ core : CoreState, core.serialize.Exact := fun core => by cases core <;> trivial
  have hu16 : ∀ o : Option UInt16, (ofOption ofU16 o).Exact := Json.exact_ofOption fun _ => trivial
  have hi32 : ∀ o : Option Int32, (ofOption ofI32 o).Exact := Json.exact_ofOption fun _ => trivial
  cases ev with
  | connected version core rpcPort => exact ⟨trivial, trivial, hcore _, hu16 _, trivial⟩
  | disconnected => exact ⟨trivial, trivial⟩
  | coreStarted pid rpcPort => exact ⟨trivial, trivial, trivial, trivial⟩
  | coreStopped reason => exact ⟨trivial, trivial, trivial⟩
  | coreExited code signal => exact ⟨trivial, hi32 _, hi32 _, trivial⟩
  | busy owner => exact ⟨trivial, trivial, trivial⟩
  | kicked => exact ⟨trivial, trivial⟩
  | error code msg => exact ⟨trivial, trivial, trivial, trivial⟩

theorem exact_eventToJson (ev : SupervisorEvent) : (eventToJson ev).Exact :=
  Json.exact_sorted (nodup_members ev) (exact_members ev)

/-- The text of an event has no NUL. -/
theorem emit_eventToJson (ev : SupervisorEvent) :
    emit (eventToJson ev).print = some (toUtf8 (eventToJson ev).print) := by
  unfold emit
  rw [if_neg]
  intro hzero
  obtain ⟨c, hc, hb⟩ := List.mem_flatMap.mp hzero
  have hnul : c.toNat = 0 := Rust.toNat_of_mem_utf8Char hb (by decide)
  have hge := Json.printable_print (exact_eventToJson ev) c hc
  omega

end EasyTierMac.Bridge
