import EasyTierMac.Json.Parts
import EasyTierMac.Rust.Parts
import EasyTierMac.Properties.Protocol
import EasyTierMac.Wire.Runs

/-!
# A fragment of a line is not taken for a line

The client can lose the first part of a line: a `read_line` future that is dropped takes with it
the bytes that it holds, and the rest of the line is then read as a line of its own. What the
strings of an event hold can look like a message. Still the client decodes no part of a line
that the supervisor wrote as an event, but for the line itself (`fragments_unread`): a brace
inside a line stands in a string, and from there on no object with a member can be read. `serde`
also reads such an event from an array that begins with its name. No part of a line is one.

So the codecs of both sides are what the model of the socket asks for (`serde_json`).
-/

namespace EasyTierMac.Protocol

open Rust (Text toUtf8 trim)
open Json (Flat Scalar PlainName)
open Wire (mirror)

/-! ## The events as flat objects -/

theorem scalar_ofOption {α : Type} {write : α → Json} (h : ∀ x, Scalar (write x)) (o : Option α) :
    Scalar (Json.ofOption write o) := by
  cases o with
  | none => trivial
  | some x => exact h x

theorem flat_cons {name : String} {v : Json} {ms : List (String × Json)} (hname : PlainName name)
    (hv : Scalar v) (hms : Flat ms) : Flat ((name, v) :: ms) :=
  List.forall_mem_cons.mpr ⟨⟨hname, hv⟩, hms⟩

theorem flat_nil : Flat [] := List.forall_mem_nil _

/-- The object of an event is flat. -/
theorem flat_serialize (ev : Supervisor.Event) :
    ∃ m ms, ev.serialize = .obj (m :: ms) ∧ Flat (m :: ms) := by
  have hcore : ∀ core : Supervisor.CoreState, Scalar core.serialize := fun core => by
    cases core <;> trivial
  have hu16 : ∀ o : Option UInt16, Scalar (Json.ofOption Json.ofU16 o) :=
    scalar_ofOption fun _ => trivial
  have hi32 : ∀ o : Option Int32, Scalar (Json.ofOption Json.ofI32 o) :=
    scalar_ofOption fun _ => trivial
  cases ev with
  | hello proto version core rpcPort =>
    exact ⟨_, _, rfl, flat_cons (by decide) trivial (flat_cons (by decide) trivial
      (flat_cons (by decide) trivial (flat_cons (by decide) (hcore _)
        (flat_cons (by decide) (hu16 _) flat_nil))))⟩
  | coreStarted pid rpcPort =>
    exact ⟨_, _, rfl, flat_cons (by decide) trivial (flat_cons (by decide) trivial
      (flat_cons (by decide) trivial flat_nil))⟩
  | status core pid rpcPort =>
    exact ⟨_, _, rfl, flat_cons (by decide) trivial (flat_cons (by decide) (hcore _)
      (flat_cons (by decide) (hi32 _) (flat_cons (by decide) (hu16 _) flat_nil)))⟩
  | coreStopped reason =>
    exact ⟨_, _, rfl, flat_cons (by decide) trivial (flat_cons (by decide) trivial flat_nil)⟩
  | coreExited code signal =>
    exact ⟨_, _, rfl, flat_cons (by decide) trivial (flat_cons (by decide) (hi32 _)
      (flat_cons (by decide) (hi32 _) flat_nil))⟩
  | error code msg =>
    exact ⟨_, _, rfl, flat_cons (by decide) trivial (flat_cons (by decide) trivial
      (flat_cons (by decide) trivial flat_nil))⟩
  | busy owner =>
    exact ⟨_, _, rfl, flat_cons (by decide) trivial (flat_cons (by decide) trivial flat_nil)⟩
  | kicked => exact ⟨_, _, rfl, flat_cons (by decide) trivial flat_nil⟩

/-- Only an object with a member is an event. -/
theorem obj_of_deserialize {v : Json} {ev : Bridge.Event}
    (h : Bridge.Event.deserialize v = some ev) : ∃ ms, v = .obj ms ∧ ms ≠ [] := by
  obtain ⟨p, hp, -⟩ := Option.bind_eq_some_iff.mp h
  cases v with
  | obj ms =>
    refine ⟨ms, rfl, ?_⟩
    rintro rfl
    cases hp
  | _ => cases hp

/-! ## Parts of a line -/

/-- The text of a part of a line, without the blanks around it, is a part of an object's line. -/
theorem object_of_part {ev : Supervisor.Event} {before part after : List UInt8} {text : Text}
    (hline : toUtf8 (Supervisor.encodeEvent Supervisor.Event.toString ev) =
      before ++ (part ++ after)) (htext : Rust.fromUtf8 part = some text) (hne : text ≠ []) :
    ∃ (m : String × Json) (ms : List (String × Json)) (t x y : Text),
      ev.serialize = .obj (m :: ms) ∧ Flat (m :: ms) ∧ before = toUtf8 t ∧
      (Json.obj (m :: ms)).print ++ ['\n'] = (t ++ x) ++ (trim text ++ y) := by
  obtain rfl := Rust.eq_toUtf8_of_fromUtf8 htext
  obtain ⟨t, t', ht, hbefore, -⟩ := Rust.parts_of_toUtf8 hne hline
  obtain ⟨x, y, htrim⟩ := Wire.trim_within text
  obtain ⟨m, ms, hserialize, hflat⟩ := flat_serialize ev
  refine ⟨m, ms, t, x, y ++ t', hserialize, hflat, hbefore, ?_⟩
  have hmore : text ++ t' = x ++ (trim text ++ (y ++ t')) :=
    (congrArg (· ++ t') htrim.symm).trans (by simp)
  rw [← hserialize]
  show Supervisor.encodeEvent Supervisor.Event.toString ev = _
  rw [ht, hmore, List.append_assoc]

/-- What the client decodes is an object of its text. -/
theorem object_of_decode {why : Text → String} {text : Text} {ev : Bridge.Event}
    (h : Bridge.decodeEvent (Bridge.serdeCodec why) text = .ok ev) :
    ∃ ms, Json.parse (trim text) = some (.obj ms) ∧ ms ≠ [] ∧
      Bridge.Event.deserialize (.obj ms) = some ev := by
  have hparsed : (Json.parse (trim text)).bind Bridge.Event.deserialize = some ev := by
    have hfrom : (Bridge.serdeCodec why).fromStr (trim text) = .ok ev := h
    unfold Bridge.serdeCodec at hfrom
    dsimp only at hfrom
    split at hfrom
    · next e he =>
      cases hfrom
      exact he
    · cases hfrom
  obtain ⟨v, hparse, hev⟩ := Option.bind_eq_some_iff.mp hparsed
  obtain ⟨ms, rfl, hne⟩ := obj_of_deserialize hev
  exact ⟨ms, hparse, hne, hev⟩

/-- What the client decodes from a part of a line is the event of the line, and the part starts
where the line does. -/
theorem event_of_part (why : Text → String) {ev : Supervisor.Event}
    {before part after : List UInt8} {text : Text} {ev' : Bridge.Event}
    (hline : toUtf8 (Supervisor.encodeEvent Supervisor.Event.toString ev) =
      before ++ (part ++ after)) (htext : Rust.fromUtf8 part = some text)
    (hdecode : Bridge.decodeEvent (Bridge.serdeCodec why) text = .ok ev') :
    before = [] ∧ ev' = mirror ev := by
  obtain ⟨ms', hparse, hne, hev⟩ := object_of_decode hdecode
  have hsome : text ≠ [] := by
    rintro rfl
    cases hparse
  obtain ⟨m, ms, t, x, y, hserialize, hflat, rfl, hobject⟩ := object_of_part hline htext hsome
  obtain ⟨hstart, rfl⟩ := Json.parse_part hflat hobject hparse hne
  rw [← hserialize, deserialize_serialize_event] at hev
  refine ⟨?_, (Option.some.inj hev).symm⟩
  rw [(List.append_eq_nil_iff.mp hstart).1]
  rfl

/-- **Fragments.** What the client decodes from a part of a line is the event of the line, and
the part starts where the line does. No part of a line is an array that begins with a string. -/
theorem fragments_unread (why : Text → String) {ev : Supervisor.Event}
    {before part after : List UInt8} {text : Text}
    (hline : toUtf8 (Supervisor.encodeEvent Supervisor.Event.toString ev) =
      before ++ (part ++ after)) (htext : Rust.fromUtf8 part = some text) :
    (∀ ev', Bridge.decodeEvent (Bridge.serdeCodec why) text = .ok ev' →
      before = [] ∧ ev' = mirror ev) ∧
    ∀ x vs, Json.parse (trim text) ≠ some (.arr (.str x :: vs)) := by
  constructor
  · exact fun ev' hdecode => event_of_part why hline htext hdecode
  · intro x vs hparse
    have hsome : text ≠ [] := by
      rintro rfl
      cases hparse
    obtain ⟨m, ms, t, y, z, -, hflat, -, hobject⟩ := object_of_part hline htext hsome
    exact Json.parse_part_arr hflat hobject x vs hparse

/-- A line whose end is lost is read all the same. -/
theorem fragments_unread_kicked :
    Bridge.decodeEvent (Bridge.serdeCodec fun _ => "") Supervisor.Event.kicked.toString =
      .ok (mirror .kicked) ∧
    (∀ ev', Bridge.decodeEvent (Bridge.serdeCodec fun _ => "") Supervisor.Event.kicked.toString =
      .ok ev' → ([] : List UInt8) = [] ∧ ev' = mirror .kicked) ∧
    ∀ x vs, Json.parse (trim Supervisor.Event.kicked.toString) ≠ some (.arr (.str x :: vs)) := by
  have hline : toUtf8 (Supervisor.encodeEvent Supervisor.Event.toString .kicked) =
      [] ++ (toUtf8 Supervisor.Event.kicked.toString ++ [0x0A]) := by
    decide +kernel
  exact ⟨by decide +kernel, fragments_unread _ hline (Rust.fromUtf8_toUtf8 _)⟩

/-! ## The codecs of the socket -/

/-- What the model of the socket asks of the codecs holds of both sides' own. -/
theorem serde_json (config : Bridge.SupervisorConfig) (why : Text → String) (sup : Supervisor.Env) :
    Wire.Json ⟨⟨config, Bridge.serdeCodec why⟩, sup, Supervisor.Event.toString⟩ where
  event_line ev := (object_line ev.exact_serialize ev.serialize_obj).1
  cmd_line cmd := (object_line cmd.exact_serialize cmd.serialize_obj).1
  cmd_blank cmd := by
    show (trim (cmd.serialize.print ++ ['\n'])).isEmpty = false
    rw [(object_line cmd.exact_serialize cmd.serialize_obj).2]
    obtain ⟨ms, hms⟩ := cmd.serialize_obj
    obtain ⟨body, hbody⟩ := Json.print_obj ms
    rw [hms, hbody]
    rfl
  cmd_length cmd := length_line_cmd cmd
  event_part hline hread := by
    obtain ⟨text, htext, hdecode⟩ := Option.bind_eq_some_iff.mp hread
    refine event_of_part why hline htext ?_
    cases hresult : Bridge.decodeEvent (Bridge.serdeCodec why) text with
    | ok ev' =>
      have he : some ev' = some _ := hresult ▸ hdecode
      rw [Option.some.inj he]
    | error e =>
      have he : none = some _ := hresult ▸ hdecode
      cases he

end EasyTierMac.Protocol
