import EasyTierMac.Bridge.Rpc
import EasyTierMac.Rust.Replace

/-!
# What a config error shows of the config

`friendly_config_error` takes four texts out of the error one after the other: the config, the
config without the white space at its ends, and two phrases. Each pass reads from the left
once, so what it leaves on both sides of a text that it takes out can make up the config
again. `Hides` says which errors these are: those that are woven, with the four texts, from a
text in which the config is seen. The result quotes the config for these and for no others
(`config_unquoted_iff`). An error that quotes the config once, next to texts that lack one of
its letters, is not one of them (`not_hides_of_wrapped`).
-/

namespace EasyTierMac.Bridge

open Rust
open Weaving (Woven Layered)

/-- What is taken out of the error, one after the other. -/
def takenOut (toml : Text) : List Text :=
  [toml, trim toml, "failed to parse config file:".toList, "invalid config:".toList]

/-- The result has the config nowhere after its fixed prefix, with or without the white
space at its ends. -/
def Unquoted (lib : Easytier) (toml : Text) (raw : String) : Prop :=
  ∀ rest, friendlyConfigError lib toml raw = "配置无效: " ++ rest →
    ¬ toml <:+: rest.toList ∧ ¬ trim toml <:+: rest.toList

/-- `u` is seen in `m`. Where it ends in a colon, something follows it other than colons and
then white space, which are cut off. -/
def Seen (u m : Text) : Prop :=
  ∃ x y, m = x ++ (u ++ y) ∧ (u.getLast? = some ':' → ∃ c ∈ trimEnd y, c ≠ ':')

/-- The error is woven from a text in which the config is seen. -/
def Hides (toml raw : Text) : Prop := ∃ m, Layered (takenOut toml) m raw ∧ Seen (trim toml) m

/-! ## The last trims -/

/-- The message that is left of `m`. -/
def message (m : Text) : Text := trim (trimEndMatches ':' (trim m))

theorem infix_message {u : Text} (hu : Solid u) (m : Text) : u <:+: message m ↔ Seen u m := by
  unfold message Seen
  rw [infix_trim hu, infix_trimEndMatches hu.ne_nil]
  constructor
  · rintro ⟨x, y, he, hlast⟩
    obtain ⟨w, hw, hstart, -⟩ := eq_append_trimStart m
    obtain ⟨w', hw', hend⟩ := eq_trimEnd_append (trimStart m)
    have hend' : trimStart m = trim m ++ w' := hend
    refine ⟨w ++ x, y ++ w', ?_, fun hcolon => ?_⟩
    · rw [hstart, hend', he]
      simp only [List.append_assoc]
    · -- nothing of `y` is white space at its end
      have hy : trimEnd y = y := by
        have htwice : trim (x ++ (u ++ y)) = x ++ (u ++ y) := by
          rw [← he]
          exact trim_eq_self (head_trim m) (last_trim m)
        rw [trim_append hu] at htwice
        have hlen := congrArg List.length htwice
        have hle : (trimStart x).length ≤ x.length := (List.dropWhile_suffix _).length_le
        simp only [List.length_append] at hlen
        have hprefix : trimEnd y <+: y := List.rdropWhile_prefix _ _
        exact hprefix.eq_of_length_le (by omega)
      obtain ⟨c, hc, hne⟩ := hlast hcolon
      refine ⟨c, ?_, hne⟩
      have hcut : trimEnd (y ++ w') = trimEnd y := rdropWhile_append_of_all hw' y
      rw [hcut, hy]
      exact hc
  · rintro ⟨x, y, rfl, hlast⟩
    exact ⟨trimStart x, trimEnd y, trim_append hu x y, hlast⟩

/-! ## The result -/

/-- The result, of a config without a syntax error. -/
theorem friendlyConfigError_eq {lib : Easytier} {toml : Text} (h : lib.tomlError toml = none)
    (raw : String) : friendlyConfigError lib toml raw =
      if message (removeAll (takenOut toml) raw.toList) = [] then "配置无效(字段校验失败)"
      else "配置无效: " ++ String.ofList (message (removeAll (takenOut toml) raw.toList)) := by
  unfold friendlyConfigError
  rw [h]
  rfl

/-- What follows the prefix is the message. -/
theorem friendlyConfigError_rest {lib : Easytier} {toml : Text} (h : lib.tomlError toml = none)
    {raw rest : String} (he : friendlyConfigError lib toml raw = "配置无效: " ++ rest) :
    rest.toList = message (removeAll (takenOut toml) raw.toList) := by
  rw [friendlyConfigError_eq h] at he
  split at he
  next =>
    -- the two fixed texts differ in their fifth character
    have hlist : "配置无效(字段校验失败)".toList[4]? = ("配置无效: " ++ rest).toList[4]? :=
      congrArg (fun s : String => s.toList[4]?) he
    have hfixed : "配置无效(字段校验失败)".toList[4]? = some '(' := by decide
    have hprefix : ("配置无效: " ++ rest).toList[4]? = some ':' := by
      rw [String.toList_append, List.getElem?_append_left (by decide)]
      decide
    have hchar : some '(' = some ':' := hfixed.symm.trans (hlist.trans hprefix)
    cases hchar
  next =>
    have hlist := congrArg String.toList he
    simp only [String.toList_append, String.toList_ofList] at hlist
    exact (List.append_cancel_left hlist).symm

/-- What is left of the error is the text that it is woven from. -/
theorem hides_iff {toml raw : Text} (hne : ∃ c ∈ toml, isWhitespace c = false) :
    Hides toml raw ↔ Seen (trim toml) (removeAll (takenOut toml) raw) := by
  have hsolid := solid_trim hne
  have hwords : ∀ pat ∈ takenOut toml, pat ≠ [] := by
    obtain ⟨c, hc, -⟩ := hne
    simp [takenOut, List.ne_nil_of_mem hc, hsolid.ne_nil]
  have hlayered := layered_removeAll hwords raw
  constructor
  · rintro ⟨m, hm, hseen⟩
    rw [← hm.unique hlayered]
    exact hseen
  · intro hseen
    exact ⟨_, hlayered, hseen⟩

/-- **No quotation.** The result for a config without a syntax error quotes the config if and
only if the error is woven from a text in which the config is seen. -/
theorem config_unquoted_iff (lib : Easytier) {toml : Text} (hvalid : lib.tomlError toml = none)
    (hne : ∃ c ∈ toml, isWhitespace c = false) (raw : String) :
    Unquoted lib toml raw ↔ ¬ Hides toml raw.toList := by
  have hsolid := solid_trim hne
  rw [hides_iff hne, ← infix_message hsolid]
  constructor
  · intro h hin
    have hmessage : message (removeAll (takenOut toml) raw.toList) ≠ [] := by
      intro hnil
      rw [hnil] at hin
      exact hsolid.ne_nil (List.infix_nil.mp hin)
    have he := friendlyConfigError_eq hvalid raw
    rw [if_neg hmessage] at he
    obtain ⟨-, hnot⟩ := h _ he
    rw [String.toList_ofList] at hnot
    exact hnot hin
  · intro hnot rest he
    rw [friendlyConfigError_rest hvalid he]
    -- a quotation of the whole config has the trimmed one in it
    have hpart : trim toml <:+: toml :=
      (infix_trim hsolid toml).mp (List.infix_refl _)
    exact ⟨fun hin => hnot (hpart.trans hin), hnot⟩

/-- An error that quotes the config once, next to texts that lack one of its letters. -/
theorem not_hides_of_wrapped {toml pre post : Text} {c : Char} (hc : c ∈ trim toml)
    (hpre : c ∉ pre) (hpost : c ∉ post) : ¬ Hides toml (pre ++ (toml ++ post)) := by
  rintro ⟨m, hm, x, y, rfl, -⟩
  have hin : c ∈ toml := by
    obtain ⟨w, -, hstart, -⟩ := eq_append_trimStart toml
    obtain ⟨w', -, hend⟩ := eq_trimEnd_append (trimStart toml)
    rw [hstart, hend]
    exact List.mem_append_right _ (List.mem_append_left _ hc)
  cases hm with
  | cons hw rest =>
    have hr := hw.unique (.of_foreign hin hpre hpost)
    subst hr
    have hleft := rest.subset (List.mem_append_right x (List.mem_append_left y hc))
    exact (List.mem_append.mp hleft).elim hpre hpost

/-- The crates, on a config with a field of the wrong type. -/
def Trial.wrongType : Easytier where
  TomlConfigLoader := Unit
  NetworkConfig := Unit
  newFromStr _ := .error "failed to parse config file: ipv4 = 12345: invalid type: integer"
  getId _ := 0
  newFromConfig _ := .ok ()
  tomlError t :=
    if t = "ipv4 = 12345".toList then none else some "TOML parse error at line 1, column 1"

theorem config_unquoted_loader :
    Unquoted Trial.wrongType "ipv4 = 12345".toList
      "failed to parse config file: ipv4 = 12345: invalid type: integer" := by
  apply (config_unquoted_iff Trial.wrongType rfl ⟨'i', by decide, by decide⟩ _).mpr
  have hraw : "failed to parse config file: ipv4 = 12345: invalid type: integer".toList =
      "failed to parse config file: ".toList ++
        ("ipv4 = 12345".toList ++ ": invalid type: integer".toList) := by decide
  rw [hraw]
  exact not_hides_of_wrapped (c := '=') (by decide) (by decide) (by decide)

/-- A phrase that is taken out stands in the middle of the config. -/
theorem config_quoted : ¬ Unquoted Trial.wrongType "ipv4 = 12345".toList
    "ipv4 = invalid config:12345" := by
  intro h
  exact (h "ipv4 = 12345" (by decide)).2 (by decide)

end EasyTierMac.Bridge
