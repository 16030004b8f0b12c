import EasyTierMac.Rust.Str

/-!
# UTF-8 (`String::as_bytes`)

`toUtf8` is the encoding of a text, and `fromUtf8` reads it back. ASCII characters are
encoded as themselves and nothing else is: a newline byte is a newline of the text.
-/

namespace EasyTierMac.Rust

/-- The bytes of one scalar value. -/
def utf8Char (c : Char) : List UInt8 :=
  let n := c.toNat
  if n < 0x80 then [UInt8.ofNat n]
  else if n < 0x800 then [UInt8.ofNat (0xC0 + n / 0x40), UInt8.ofNat (0x80 + n % 0x40)]
  else if n < 0x10000 then
    [UInt8.ofNat (0xE0 + n / 0x1000), UInt8.ofNat (0x80 + n / 0x40 % 0x40),
      UInt8.ofNat (0x80 + n % 0x40)]
  else
    [UInt8.ofNat (0xF0 + n / 0x40000), UInt8.ofNat (0x80 + n / 0x1000 % 0x40),
      UInt8.ofNat (0x80 + n / 0x40 % 0x40), UInt8.ofNat (0x80 + n % 0x40)]

/-- `String::as_bytes`. -/
def toUtf8 (t : Text) : List UInt8 := t.flatMap utf8Char

theorem toUtf8_append (t u : Text) : toUtf8 (t ++ u) = toUtf8 t ++ toUtf8 u :=
  List.flatMap_append

/-! ## Decoding what was encoded -/

theorem contBits_ofNat {x : Nat} (h : x < 0x40) : contBits (UInt8.ofNat (0x80 + x)) = some x := by
  have hmod : (0x80 + x) % 256 = 0x80 + x := Nat.mod_eq_of_lt (by omega)
  have hle : (0x80 : UInt8) ≤ UInt8.ofNat (0x80 + x) := by
    rw [UInt8.le_iff_toNat_le, UInt8.toNat_ofNat', hmod]
    show 0x80 ≤ 0x80 + x
    omega
  have hlt : UInt8.ofNat (0x80 + x) < 0xC0 := by
    rw [UInt8.lt_iff_toNat_lt, UInt8.toNat_ofNat', hmod]
    show 0x80 + x < 0xC0
    omega
  have hrange : (0x80 ≤ UInt8.ofNat (0x80 + x) && UInt8.ofNat (0x80 + x) < 0xC0) = true := by
    rw [Bool.and_eq_true, decide_eq_true_eq, decide_eq_true_eq]
    exact ⟨hle, hlt⟩
  unfold contBits
  rw [if_pos hrange, UInt8.toNat_ofNat', hmod, Nat.add_sub_cancel_left]

theorem scalar_toNat {c : Char} {lo : Nat} (h : lo ≤ c.toNat) : scalar lo c.toNat = some c := by
  have hvalid : c.toNat < 0xD800 ∨ 0xDFFF < c.toNat ∧ c.toNat < 0x110000 := c.valid
  unfold scalar
  rw [if_pos, Char.ofNat_toNat]
  simp only [Bool.and_eq_true, decide_eq_true_eq, Bool.not_eq_true', Bool.and_eq_false_imp,
    decide_eq_false_iff_not]
  omega

/-- The head byte of a sequence, compared with a bound. -/
theorem ofNat_lt_iff {n : Nat} (h : n < 256) (b : UInt8) : UInt8.ofNat n < b ↔ n < b.toNat := by
  rw [UInt8.lt_iff_toNat_lt, UInt8.toNat_ofNat', Nat.mod_eq_of_lt h]

theorem le_ofNat_iff {n : Nat} (h : n < 256) (b : UInt8) : b ≤ UInt8.ofNat n ↔ b.toNat ≤ n := by
  rw [UInt8.le_iff_toNat_le, UInt8.toNat_ofNat', Nat.mod_eq_of_lt h]

/-- One encoded character is read back. -/
theorem fromUtf8_utf8Char (c : Char) (rest : List UInt8) :
    fromUtf8 (utf8Char c ++ rest) = (fromUtf8 rest).map (c :: ·) := by
  have hvalid : c.toNat < 0xD800 ∨ 0xDFFF < c.toNat ∧ c.toNat < 0x110000 := c.valid
  unfold utf8Char
  dsimp only
  by_cases h1 : c.toNat < 0x80
  · have hb : c.toNat < 256 := by omega
    rw [if_pos h1, List.singleton_append, fromUtf8.eq_def]
    dsimp only
    rw [if_pos ((ofNat_lt_iff hb 0x80).mpr h1), UInt8.toNat_ofNat', Nat.mod_eq_of_lt hb,
      Char.ofNat_toNat]
  rw [if_neg h1]
  by_cases h2 : c.toNat < 0x800
  · have hb : 0xC0 + c.toNat / 0x40 < 256 := by omega
    -- the bits of the bytes put together again
    have hsum : (0xC0 + c.toNat / 0x40 - 0xC0) * 0x40 + c.toNat % 0x40 = c.toNat := by omega
    rw [if_pos h2]
    simp only [List.cons_append, List.nil_append]
    rw [fromUtf8]
    simp only [ofNat_lt_iff hb, le_ofNat_iff hb, contBits_ofNat (Nat.mod_lt _ (by decide : 0 < 0x40))]
    rw [if_neg (by show ¬ _ < 0x80; omega), if_pos (by simp; omega)]
    simp only [UInt8.toNat_ofNat', Nat.mod_eq_of_lt hb, hsum, Option.bind_eq_bind, Option.bind_some,
      scalar_toNat (Nat.le_of_not_lt h1)]
  rw [if_neg h2]
  by_cases h3 : c.toNat < 0x10000
  · have hb : 0xE0 + c.toNat / 0x1000 < 256 := by omega
    have hsum : ((0xE0 + c.toNat / 0x1000 - 0xE0) * 0x40 + c.toNat / 0x40 % 0x40) * 0x40 +
        c.toNat % 0x40 = c.toNat := by omega
    rw [if_pos h3]
    simp only [List.cons_append, List.nil_append]
    rw [fromUtf8]
    simp only [ofNat_lt_iff hb, le_ofNat_iff hb, contBits_ofNat (Nat.mod_lt _ (by decide : 0 < 0x40))]
    rw [if_neg (by show ¬ _ < 0x80; omega), if_neg (by simp), if_pos (by simp; omega)]
    simp only [UInt8.toNat_ofNat', Nat.mod_eq_of_lt hb, hsum, Option.bind_eq_bind, Option.bind_some,
      scalar_toNat (Nat.le_of_not_lt h2)]
  · have hb : 0xF0 + c.toNat / 0x40000 < 256 := by omega
    have hsum : (((0xF0 + c.toNat / 0x40000 - 0xF0) * 0x40 + c.toNat / 0x1000 % 0x40) * 0x40 +
        c.toNat / 0x40 % 0x40) * 0x40 + c.toNat % 0x40 = c.toNat := by omega
    rw [if_neg h3]
    simp only [List.cons_append, List.nil_append]
    rw [fromUtf8]
    simp only [ofNat_lt_iff hb, le_ofNat_iff hb, contBits_ofNat (Nat.mod_lt _ (by decide : 0 < 0x40))]
    rw [if_neg (by show ¬ _ < 0x80; omega), if_neg (by simp; omega), if_neg (by simp),
      if_pos (by simp; omega)]
    simp only [UInt8.toNat_ofNat', Nat.mod_eq_of_lt hb, hsum, Option.bind_eq_bind, Option.bind_some,
      scalar_toNat (Nat.le_of_not_lt h3)]

/-- **Round trip.** A text is read back from its bytes. -/
theorem fromUtf8_toUtf8 (t : Text) : fromUtf8 (toUtf8 t) = some t := by
  induction t with
  | nil => rfl
  | cons c t ih =>
    show fromUtf8 (utf8Char c ++ toUtf8 t) = _
    rw [fromUtf8_utf8Char, ih]
    rfl

/-! ## ASCII -/

/-- Only an ASCII character has an ASCII byte. -/
theorem toNat_of_mem_utf8Char {c : Char} {b : UInt8} (hb : b ∈ utf8Char c) (hlt : b < 0x80) :
    c.toNat = b.toNat := by
  have hvalid : c.toNat < 0xD800 ∨ 0xDFFF < c.toNat ∧ c.toNat < 0x110000 := c.valid
  have hne : ∀ n, 0x80 ≤ n → n < 256 → b ≠ UInt8.ofNat n := by
    intro n hn hn' he
    rw [he, ofNat_lt_iff hn'] at hlt
    exact absurd hlt (Nat.not_lt.mpr hn)
  unfold utf8Char at hb
  dsimp only at hb
  by_cases h1 : c.toNat < 0x80
  · rw [if_pos h1, List.mem_singleton] at hb
    rw [hb, UInt8.toNat_ofNat', Nat.mod_eq_of_lt (by omega)]
  rw [if_neg h1] at hb
  by_cases h2 : c.toNat < 0x800
  · rw [if_pos h2] at hb
    simp only [List.mem_cons, List.not_mem_nil, or_false] at hb
    rcases hb with hb | hb <;> exact absurd hb (hne _ (by omega) (by omega))
  rw [if_neg h2] at hb
  by_cases h3 : c.toNat < 0x10000
  · rw [if_pos h3] at hb
    simp only [List.mem_cons, List.not_mem_nil, or_false] at hb
    rcases hb with hb | hb | hb <;> exact absurd hb (hne _ (by omega) (by omega))
  · rw [if_neg h3] at hb
    simp only [List.mem_cons, List.not_mem_nil, or_false] at hb
    rcases hb with hb | hb | hb | hb <;> exact absurd hb (hne _ (by omega) (by omega))

/-- A newline byte is a newline of the text. -/
theorem newline_mem_of_toUtf8 {t : Text} (h : 0x0A ∈ toUtf8 t) : '\n' ∈ t := by
  obtain ⟨c, hc, hb⟩ := List.mem_flatMap.mp h
  have hn : c.toNat = '\n'.toNat := toNat_of_mem_utf8Char hb (by decide)
  have he : c = '\n' := by
    rw [← Char.ofNat_toNat c, hn]
    decide
  exact he ▸ hc

/-- A character takes four bytes at most. -/
theorem length_toUtf8_le (t : Text) : (toUtf8 t).length ≤ 4 * t.length := by
  induction t with
  | nil => exact Nat.le_refl 0
  | cons c t ih =>
    have hc : (utf8Char c).length ≤ 4 := by
      unfold utf8Char
      dsimp only
      split
      · exact Nat.le_of_ble_eq_true rfl
      split
      · exact Nat.le_of_ble_eq_true rfl
      split
      · exact Nat.le_of_ble_eq_true rfl
      · exact Nat.le_refl 4
    show (utf8Char c ++ toUtf8 t).length ≤ _
    rw [List.length_append, List.length_cons]
    omega

/-- ASCII bytes are the characters that they encode. -/
theorem fromUtf8_ascii {l : List UInt8} (h : ∀ b ∈ l, b < 0x80) :
    fromUtf8 l = some (l.map fun b => Char.ofNat b.toNat) := by
  induction l with
  | nil => rfl
  | cons b l ih =>
    rw [fromUtf8.eq_def]
    dsimp only
    rw [if_pos (h b List.mem_cons_self), ih fun b' hb => h b' (List.mem_cons_of_mem b hb)]
    rfl

end EasyTierMac.Rust
