import EasyTierMac.Bridge.Serde
import EasyTierMac.Supervisor.Serde
import EasyTierMac.Supervisor.Received
import EasyTierMac.Wire.Streams

/-!
# The two copies of the control protocol agree

The supervisor and the client each have their own types of the protocol and their own
derived encoders and decoders. What one side encodes is one line, and the other side
decodes it as the same message (`codecs_agree`). A line stays one line whatever its strings
hold, as no control character of a string gets into the text.
-/

namespace EasyTierMac.Protocol

open Rust (Text toUtf8 trim trimStart trimEnd isWhitespace)
open Json (names untag tagged required defaulted asU16 asU32 asBool asString asOption
  untag_tagged required_cons_self required_cons_of_ne defaulted_cons_self defaulted_cons_of_ne)
open Supervisor (MAX_LINE readLineLimited)
open Wire (mirror mirrorCore)

/-- A command of the client in the supervisor's types. -/
def mirrorCmd : Bridge.Cmd → Supervisor.Cmd
  | .hello proto takeover => .hello proto takeover
  | .start => .start
  | .status => .status
  | .stop => .stop

/-! ## Values -/

theorem deserialize_serialize_core (core : Supervisor.CoreState) :
    Bridge.CoreState.deserialize core.serialize = some (mirrorCore core) := by
  cases core <;> rfl

/-- The client reads every event as the supervisor wrote it. -/
theorem deserialize_serialize_event (ev : Supervisor.Event) :
    Bridge.Event.deserialize ev.serialize = some (mirror ev) := by
  cases ev with
  | hello proto version core rpcPort =>
    -- the fields of a hello one by one, each behind those in front of it
    have hversion : defaulted "version" asString ""
        [("proto", Json.ofU32 proto), ("version", Json.str version), ("core", core.serialize),
          ("rpc_port", Json.ofOption Json.ofU16 rpcPort)] = some version := by
      simp [defaulted_cons_self, defaulted_cons_of_ne]
    have hcore : required "core" Bridge.CoreState.deserialize
        [("proto", Json.ofU32 proto), ("version", Json.str version), ("core", core.serialize),
          ("rpc_port", Json.ofOption Json.ofU16 rpcPort)] = some (mirrorCore core) := by
      simp [required_cons_self, required_cons_of_ne, deserialize_serialize_core]
    have hport : defaulted "rpc_port" (asOption asU16) none
        [("proto", Json.ofU32 proto), ("version", Json.str version), ("core", core.serialize),
          ("rpc_port", Json.ofOption Json.ofU16 rpcPort)] = some rpcPort := by
      simp [defaulted_cons_self, defaulted_cons_of_ne]
    exact Bridge.Event.deserialize_hello (by simp) (by simp [required_cons_self]) hversion hcore
      hport
  | coreStarted pid rpcPort =>
    unfold Supervisor.Event.serialize Bridge.Event.deserialize
    rw [untag_tagged _ (by simp)]
    simp [required_cons_self, required_cons_of_ne, mirror]
  | status core pid rpcPort =>
    unfold Supervisor.Event.serialize Bridge.Event.deserialize
    rw [untag_tagged _ (by simp)]
    simp [required_cons_self, defaulted_cons_self, defaulted_cons_of_ne,
      deserialize_serialize_core, mirror]
  | coreStopped reason =>
    unfold Supervisor.Event.serialize Bridge.Event.deserialize
    rw [untag_tagged _ (by simp)]
    simp [defaulted_cons_self, mirror]
  | coreExited code signal =>
    unfold Supervisor.Event.serialize Bridge.Event.deserialize
    rw [untag_tagged _ (by simp)]
    simp [defaulted_cons_self, defaulted_cons_of_ne, mirror]
  | error code msg =>
    unfold Supervisor.Event.serialize Bridge.Event.deserialize
    rw [untag_tagged _ (by simp)]
    simp [defaulted_cons_self, defaulted_cons_of_ne, mirror]
  | busy owner =>
    unfold Supervisor.Event.serialize Bridge.Event.deserialize
    rw [untag_tagged _ (by simp)]
    simp [defaulted_cons_self, mirror]
  | kicked =>
    unfold Supervisor.Event.serialize Bridge.Event.deserialize
    rw [untag_tagged _ (by simp)]
    rfl

/-- The supervisor reads every command as the client wrote it. -/
theorem deserialize_serialize_cmd (cmd : Bridge.Cmd) :
    Supervisor.Cmd.deserialize cmd.serialize = some (mirrorCmd cmd) := by
  cases cmd with
  | hello proto takeover =>
    have htakeover : defaulted "takeover" asBool false
        [("proto", Json.ofU32 proto), ("takeover", Json.bool takeover)] = some takeover := by
      simp [defaulted_cons_self, defaulted_cons_of_ne]
    exact Supervisor.Cmd.deserialize_hello (by simp) (by simp [required_cons_self]) htakeover
  | start | status | stop =>
    unfold Bridge.Cmd.serialize Supervisor.Cmd.deserialize
    rw [untag_tagged _ (by simp)]
    rfl

/-! ## Lines -/

/-- A line is the text between two blanks that are not in it. -/
theorem trim_line {t : Text} {a b : Char} {body : Text} (ht : t = a :: (body ++ [b]))
    (ha : isWhitespace a = false) (hb : isWhitespace b = false) : trim (t ++ ['\n']) = t := by
  have hstart : trimStart (t ++ ['\n']) = t ++ ['\n'] := by
    unfold trimStart
    rw [ht, List.cons_append, List.dropWhile_cons_of_neg]
    rw [ha]
    decide
  have hlast : t = (a :: body) ++ [b] := ht
  unfold trim
  rw [hstart]
  unfold trimEnd
  rw [List.rdropWhile_concat_pos _ _ _ (by decide), hlast, List.rdropWhile_concat_neg]
  rw [hb]
  decide

/-- The text of an object is one line, and is what is left of the line without its end. -/
theorem object_line {v : Json} (hv : v.Exact) (hobj : ∃ ms, v = .obj ms) :
    '\n' ∉ v.print ∧ trim (v.print ++ ['\n']) = v.print := by
  obtain ⟨ms, rfl⟩ := hobj
  obtain ⟨body, hbody⟩ := Json.print_obj ms
  refine ⟨fun hmem => ?_, trim_line hbody (by decide) (by decide)⟩
  have hge := Json.printable_print hv '\n' hmem
  exact absurd hge (by decide)

theorem length_printInt_u32 (n : UInt32) : (Json.printInt n.toNat).length ≤ 10 := by
  have hn : n.toNat < 10 ^ 10 := Nat.lt_trans n.toNat_lt (by decide)
  unfold Json.printInt
  rw [if_neg (by omega), Int.natAbs_natCast]
  exact (Nat.length_toDigits_le_iff (by decide) (by decide)).mpr hn

/-- The longest command has a version of ten digits. -/
theorem length_print_cmd (cmd : Bridge.Cmd) : cmd.serialize.print.length ≤ 51 := by
  cases cmd with
  | hello proto takeover =>
    have hproto := length_printInt_u32 proto
    have htakeover : (Json.bool takeover).print.length ≤ 5 := by cases takeover <;> decide
    have hcmd : (Json.printMember ("cmd", .str "hello")).length = 13 := by decide
    have hname : (Json.printString "proto").length = 7 := by decide
    have hname' : (Json.printString "takeover").length = 10 := by decide
    show ('{' :: (Json.printMember ("cmd", .str "hello") ++
      (',' :: (Json.printString "proto" ++ ':' :: Json.printInt proto.toNat ++
        (',' :: (Json.printString "takeover" ++ ':' :: (Json.bool takeover).print ++
          ['}'])))))).length ≤ 51
    simp only [List.length_cons, List.length_append, List.length_nil, hcmd, hname, hname']
    omega
  | start => decide
  | status => decide
  | stop => decide

/-- No command is too long for a control line. -/
theorem length_line_cmd (cmd : Bridge.Cmd) :
    (toUtf8 (cmd.serialize.print ++ ['\n'])).length ≤ MAX_LINE := by
  have hbytes := Rust.length_toUtf8_le (cmd.serialize.print ++ ['\n'])
  have hprint := length_print_cmd cmd
  rw [List.length_append, List.length_singleton] at hbytes
  have hmax : MAX_LINE = 65536 := rfl
  omega

/-- The supervisor's `read_line_limited` takes such a line whole. -/
theorem readLineLimited_line {t : Text} (ht : '\n' ∉ t)
    (hlen : (toUtf8 (t ++ ['\n'])).length ≤ MAX_LINE) (more : List UInt8) (eof : Bool) :
    readLineLimited MAX_LINE (toUtf8 (t ++ ['\n']) ++ more) eof
      = some (.line (t ++ ['\n']), more) := by
  have hframe : Framing.IsFrame 0x0A (toUtf8 (t ++ ['\n'])) := Wire.isFrame_toUtf8 ht
  unfold readLineLimited
  rw [List.take_append, List.take_of_length_le hlen, List.drop_append,
    List.drop_of_length_le hlen, Supervisor.splitLine_eq, Framing.splitAfter_frame hframe]
  simp only [Rust.fromUtf8_toUtf8, List.nil_append, List.take_append_drop]

/-! ## The protocol -/

/-- **Agreement.** Every event of the supervisor and every command of the client is one line,
and the other side decodes it as the same variant with the same fields. A command is within
the limit of a control line, and is read as it was written whatever comes after it. -/
theorem codecs_agree (why why' : Text → String) :
    (∀ ev : Supervisor.Event,
      (∃ body, Supervisor.encodeEvent Supervisor.Event.toString ev = body ++ ['\n'] ∧
        '\n' ∉ body) ∧
      Bridge.decodeEvent (Bridge.serdeCodec why)
        (Supervisor.encodeEvent Supervisor.Event.toString ev) = .ok (mirror ev)) ∧
    (∀ cmd : Bridge.Cmd,
      (∃ body, Bridge.encodeCmd (Bridge.serdeCodec why) cmd = body ++ ['\n'] ∧ '\n' ∉ body) ∧
      (toUtf8 (Bridge.encodeCmd (Bridge.serdeCodec why) cmd)).length ≤ MAX_LINE ∧
      (∀ more eof, readLineLimited MAX_LINE
        (toUtf8 (Bridge.encodeCmd (Bridge.serdeCodec why) cmd) ++ more) eof
          = some (.line (Bridge.encodeCmd (Bridge.serdeCodec why) cmd), more)) ∧
      Supervisor.decodeCmd (Supervisor.Cmd.fromStr why')
        (Bridge.encodeCmd (Bridge.serdeCodec why) cmd) = .ok (mirrorCmd cmd)) := by
  constructor
  · intro ev
    obtain ⟨hline, htrim⟩ := object_line ev.exact_serialize ev.serialize_obj
    refine ⟨⟨_, rfl, hline⟩, ?_⟩
    have hread : (Json.parse ev.serialize.print).bind Bridge.Event.deserialize
        = some (mirror ev) := by
      rw [Json.parse_print ev.exact_serialize, Option.bind_some, deserialize_serialize_event]
    show (Bridge.serdeCodec why).fromStr (trim (ev.serialize.print ++ ['\n'])) = _
    rw [htrim]
    simp only [Bridge.serdeCodec, hread]
  · intro cmd
    obtain ⟨hline, htrim⟩ := object_line cmd.exact_serialize cmd.serialize_obj
    have hread : (Json.parse cmd.serialize.print).bind Supervisor.Cmd.deserialize
        = some (mirrorCmd cmd) := by
      rw [Json.parse_print cmd.exact_serialize, Option.bind_some, deserialize_serialize_cmd]
    have hlen := length_line_cmd cmd
    refine ⟨⟨_, rfl, hline⟩, hlen, readLineLimited_line hline hlen, ?_⟩
    show Supervisor.Cmd.fromStr why' (trim (cmd.serialize.print ++ ['\n'])) = _
    rw [htrim]
    simp only [Supervisor.Cmd.fromStr, hread]

end EasyTierMac.Protocol
