import EasyTierMac.App.Model
import EasyTierMac.Json.Object
import EasyTierMac.Rust.Utf8

/-!
# Decoding the events of the bridge (`BridgeModels.swift`, `BridgeClient.swift`)

`BridgeEvent.decode` is `init(from:)`: a missing or ill-typed field has a fallback in most
cases (`tryDecode`), and is an error in some (`decodeIfPresent`). `JSONDecoder` would also
take an integer from a literal like `1.0`, which the bridge does not write.
-/

namespace EasyTierMac.App

open Rust (Text fromUtf8)
open Json (lookup asString asBool asU16 asU32 asI32 asOption)

variable {α : Type*}

/-- `(try? c.decode(T.self, forKey:)) ?? fallback`. -/
def tryDecode (read : Json → Option α) (key : String) (fallback : α)
    (c : List (String × Json)) : α :=
  ((lookup key c).bind read).getD fallback

/-- `try c.decodeIfPresent(T.self, forKey:)`: `nil` for a key that is missing or `null`. -/
def decodeIfPresent (read : Json → Option α) (key : String) (c : List (String × Json)) :
    Option (Option α) :=
  match lookup key c with
  | none => some none
  | some v => asOption read v

theorem tryDecode_eq {read : Json → Option α} {key : String} {c : List (String × Json)} {v : Json}
    {x : α} (hkey : lookup key c = some v) (hread : read v = some x) (fallback : α) :
    tryDecode read key fallback c = x := by
  unfold tryDecode
  rw [hkey, Option.bind_some, hread, Option.getD_some]

theorem decodeIfPresent_eq {read : Json → Option α} {key : String} {c : List (String × Json)}
    {v : Json} (hkey : lookup key c = some v) : decodeIfPresent read key c = asOption read v := by
  unfold decodeIfPresent
  rw [hkey]

/-- `init(from:)`; `none` is an error that is thrown. -/
def BridgeEvent.decode : Json → Option BridgeEvent
  | .obj c => do
    let type ← (lookup "type" c).bind asString
    match type with
    | "connected" => do
      let rpcPort ← decodeIfPresent asU16 "rpc_port" c
      some (.connected (tryDecode asString "version" "" c) (tryDecode asString "core" "" c) rpcPort)
    | "disconnected" => some .disconnected
    | "core_started" =>
      some (.coreStarted (tryDecode asU32 "pid" 0 c) (tryDecode asU16 "rpc_port" 0 c))
    | "core_stopped" => some (.coreStopped (tryDecode asString "reason" "" c))
    | "core_exited" => do
      let code ← decodeIfPresent asI32 "code" c
      let signal ← decodeIfPresent asI32 "signal" c
      some (.coreExited code signal)
    | "busy" => some (.busy (tryDecode asBool "owner" true c))
    | "kicked" => some .kicked
    | "error" => some (.error (tryDecode asString "code" "" c) (tryDecode asString "msg" "" c))
    | _ => some (.unknown type)
  | _ => none

/-- `init(jsonString:)`. -/
def BridgeEvent.ofJsonString (jsonString : Text) : BridgeEvent :=
  match (Json.parse jsonString).bind BridgeEvent.decode with
  | some ev => ev
  | none => .malformed (String.ofList jsonString)

/-- `String(cString:)`, which repairs what is not UTF-8. -/
def stringOfCString (repair : List UInt8 → Text) (bytes : List UInt8) : Text :=
  (fromUtf8 bytes).getD (repair bytes)

/-- `bridgeEventTrampoline`: the event that it puts on the stream. -/
def bridgeEventTrampoline (repair : List UInt8 → Text) (bytes : List UInt8) : BridgeEvent :=
  .ofJsonString (stringOfCString repair bytes)

end EasyTierMac.App
