import Mathlib.Data.List.Forall2
import EasyTierMac.App.Events
import EasyTierMac.Bridge.EventJson

/-!
# Bridge events survive the C boundary

The encoder of the bridge and the decoder of the app are written by hand in two languages.
`Same` says which event of the app has the fields of an event of the bridge. Each event is
decoded as the one that is the same (`decode_eventToJson`), and of a run of events the
callback gets each one once, in order (`events_delivered`). The process id is an `i32` on
one side and a `UInt32` on the other: it must be positive.
-/

namespace EasyTierMac.Boundary

open Rust (Text toUtf8 fromUtf8_toUtf8)
open Bridge (SupervisorEvent eventToJson emit forwardEvents)
open App (BridgeEvent decodeIfPresent_eq tryDecode_eq bridgeEventTrampoline)
open Json (lookup asString asOption ofI32 asU32)

/-- The app's name of a core state. -/
def coreName : Bridge.CoreState → String
  | .stopped => "stopped"
  | .running => "running"

/-- The same event with the same fields. -/
def Same : SupervisorEvent → BridgeEvent → Prop
  | .connected version core rpcPort, .connected version' core' rpcPort' =>
    version' = version ∧ core' = coreName core ∧ rpcPort' = rpcPort
  | .disconnected, .disconnected => True
  | .coreStarted pid rpcPort, .coreStarted pid' rpcPort' =>
    (pid'.toNat : Int) = pid.toInt ∧ rpcPort' = rpcPort
  | .coreStopped reason, .coreStopped reason' => reason' = reason
  | .coreExited code signal, .coreExited code' signal' => code' = code ∧ signal' = signal
  | .busy owner, .busy owner' => owner' = owner
  | .kicked, .kicked => True
  | .error code msg, .error code' message => code' = code ∧ message = msg
  | _, _ => False

/-- A process id that the event has is positive. -/
def PidPositive : SupervisorEvent → Prop
  | .coreStarted pid _ => 0 < pid.toInt
  | _ => True

theorem asU32_ofI32 {pid : Int32} (hpid : 0 < pid.toInt) :
    ∃ n : UInt32, asU32 (ofI32 pid) = some n ∧ (n.toNat : Int) = pid.toInt := by
  have hlt := pid.toInt_lt
  refine ⟨UInt32.ofNat pid.toInt.toNat, ?_, ?_⟩
  · simp only [ofI32, asU32]
    rw [if_pos (by omega)]
  · rw [UInt32.toNat_ofNat', Nat.mod_eq_of_lt (by omega)]
    omega

/-- The members of an event, as the decoder finds them. -/
theorem lookup_members (ev : SupervisorEvent) :
    ∃ ms, eventToJson ev = .obj ms ∧ ∀ k v, (k, v) ∈ ev.members → lookup k ms = some v :=
  ⟨_, rfl, fun _ _ hmem => Json.lookup_sortMembers (Bridge.nodup_members ev) hmem⟩

/-- **One event.** Neither `malformed` nor `unknown`, and no field is a fallback. -/
theorem decode_eventToJson {ev : SupervisorEvent} (hpid : PidPositive ev) :
    ∃ bev, BridgeEvent.decode (eventToJson ev) = some bev ∧ Same ev bev := by
  obtain ⟨ms, hms, hlook⟩ := lookup_members ev
  rw [hms]
  cases ev with
  | connected version core rpcPort =>
    have htype := hlook "type" (.str "connected") (by simp [SupervisorEvent.members])
    have hversion := hlook "version" (.str version) (by simp [SupervisorEvent.members])
    have hcore := hlook "core" (.str (coreName core))
      (by cases core <;> simp [SupervisorEvent.members, Bridge.CoreState.serialize, coreName])
    have hport := hlook "rpc_port" (Json.ofOption Json.ofU16 rpcPort)
      (by simp [SupervisorEvent.members])
    refine ⟨.connected version (coreName core) rpcPort, ?_, rfl, rfl, rfl⟩
    unfold BridgeEvent.decode
    simp only [htype, decodeIfPresent_eq hport, Json.asOption_ofU16, Option.bind_eq_bind,
      Option.bind_some, Json.asString_str, tryDecode_eq hversion (Json.asString_str version),
      tryDecode_eq hcore (Json.asString_str _)]
  | disconnected =>
    have htype := hlook "type" (.str "disconnected") (by simp [SupervisorEvent.members])
    refine ⟨.disconnected, ?_, trivial⟩
    unfold BridgeEvent.decode
    simp only [htype, Option.bind_eq_bind, Option.bind_some, Json.asString_str]
  | coreStarted pid rpcPort =>
    have htype := hlook "type" (.str "core_started") (by simp [SupervisorEvent.members])
    have hkey := hlook "pid" (ofI32 pid) (by simp [SupervisorEvent.members])
    have hport := hlook "rpc_port" (Json.ofU16 rpcPort) (by simp [SupervisorEvent.members])
    obtain ⟨n, hn, hsame⟩ := asU32_ofI32 hpid
    refine ⟨.coreStarted n rpcPort, ?_, hsame, rfl⟩
    unfold BridgeEvent.decode
    simp only [htype, Option.bind_eq_bind, Option.bind_some, Json.asString_str,
      tryDecode_eq hkey hn, tryDecode_eq hport (Json.asU16_ofU16 rpcPort)]
  | coreStopped reason =>
    have htype := hlook "type" (.str "core_stopped") (by simp [SupervisorEvent.members])
    have hreason := hlook "reason" (.str reason) (by simp [SupervisorEvent.members])
    refine ⟨.coreStopped reason, ?_, rfl⟩
    unfold BridgeEvent.decode
    simp only [htype, Option.bind_eq_bind, Option.bind_some, Json.asString_str,
      tryDecode_eq hreason (Json.asString_str reason)]
  | coreExited code signal =>
    have htype := hlook "type" (.str "core_exited") (by simp [SupervisorEvent.members])
    have hcode := hlook "code" (Json.ofOption ofI32 code) (by simp [SupervisorEvent.members])
    have hsignal := hlook "signal" (Json.ofOption ofI32 signal) (by simp [SupervisorEvent.members])
    refine ⟨.coreExited code signal, ?_, rfl, rfl⟩
    unfold BridgeEvent.decode
    simp only [htype, decodeIfPresent_eq hcode, decodeIfPresent_eq hsignal, Json.asOption_ofI32,
      Option.bind_eq_bind, Option.bind_some, Json.asString_str]
  | kicked =>
    have htype := hlook "type" (.str "kicked") (by simp [SupervisorEvent.members])
    refine ⟨.kicked, ?_, trivial⟩
    unfold BridgeEvent.decode
    simp only [htype, Option.bind_eq_bind, Option.bind_some, Json.asString_str]
  | busy owner =>
    have htype := hlook "type" (.str "busy") (by simp [SupervisorEvent.members])
    have howner := hlook "owner" (.bool owner) (by simp [SupervisorEvent.members])
    refine ⟨.busy owner, ?_, rfl⟩
    unfold BridgeEvent.decode
    simp only [htype, Option.bind_eq_bind, Option.bind_some, Json.asString_str,
      tryDecode_eq howner (Json.asBool_bool owner)]
  | error code msg =>
    have htype := hlook "type" (.str "error") (by simp [SupervisorEvent.members])
    have hcode := hlook "code" (.str code) (by simp [SupervisorEvent.members])
    have hmsg := hlook "msg" (.str msg) (by simp [SupervisorEvent.members])
    refine ⟨.error code msg, ?_, rfl, rfl⟩
    unfold BridgeEvent.decode
    simp only [htype, Option.bind_eq_bind, Option.bind_some, Json.asString_str,
      tryDecode_eq hcode (Json.asString_str code), tryDecode_eq hmsg (Json.asString_str msg)]

/-- What the app makes of the text of an event. -/
theorem ofJsonString_eventToJson {ev : SupervisorEvent} (hpid : PidPositive ev) :
    Same ev (BridgeEvent.ofJsonString (eventToJson ev).print) := by
  obtain ⟨bev, hdecode, hsame⟩ := decode_eventToJson hpid
  unfold BridgeEvent.ofJsonString
  rw [Json.parse_print (Bridge.exact_eventToJson ev), Option.bind_some, hdecode]
  exact hsame

/-- The calls of the callback while `forward_events` drains `evs`, with the C string that
each gets. -/
def emitted (evs : List SupervisorEvent) : List (List UInt8) :=
  (forwardEvents (none, []) evs).2.filterMap fun ev => emit (eventToJson ev).print

theorem emitted_eq (evs : List SupervisorEvent) :
    emitted evs = evs.map fun ev => toUtf8 (eventToJson ev).print := by
  unfold emitted
  rw [Bridge.forwardEvents_eq, List.nil_append]
  induction evs with
  | nil => rfl
  | cons ev evs ih =>
    rw [List.filterMap_cons, Bridge.emit_eventToJson, ih]
    rfl

/-- **The C boundary.** The callback is called once for every event, in order, with a C
string without NUL, and the app decodes it to the same event with the same fields. -/
theorem events_delivered (repair : List UInt8 → Text) (evs : List SupervisorEvent)
    (hpid : ∀ ev ∈ evs, PidPositive ev) :
    (∀ bytes ∈ emitted evs, (0 : UInt8) ∉ bytes) ∧
      List.Forall₂ (fun ev bytes => bytes = toUtf8 (eventToJson ev).print ∧
        Same ev (bridgeEventTrampoline repair bytes)) evs (emitted evs) := by
  rw [emitted_eq]
  constructor
  · intro bytes hbytes
    obtain ⟨ev, -, rfl⟩ := List.mem_map.mp hbytes
    have hemit := Bridge.emit_eventToJson ev
    unfold emit at hemit
    intro hzero
    rw [if_pos hzero] at hemit
    cases hemit
  · rw [List.forall₂_map_right_iff, List.forall₂_same]
    intro ev hev
    refine ⟨rfl, ?_⟩
    unfold bridgeEventTrampoline App.stringOfCString
    rw [fromUtf8_toUtf8, Option.getD_some]
    exact ofJsonString_eventToJson (hpid ev hev)

theorem events_delivered_two :
    (∀ bytes ∈ emitted [.coreStarted 4321 50321, .error "io" "say \"no\"\n\x00"],
      (0 : UInt8) ∉ bytes) ∧
      List.Forall₂ (fun ev bytes => bytes = toUtf8 (eventToJson ev).print ∧
        Same ev (bridgeEventTrampoline (fun _ => []) bytes))
        [.coreStarted 4321 50321, .error "io" "say \"no\"\n\x00"]
        (emitted [.coreStarted 4321 50321, .error "io" "say \"no\"\n\x00"]) := by
  apply events_delivered
  intro ev hev
  rcases List.mem_cons.mp hev with rfl | hev
  · show (0 : Int) < (4321 : Int32).toInt
    decide
  · rcases List.mem_singleton.mp hev with rfl
    trivial

end EasyTierMac.Boundary
