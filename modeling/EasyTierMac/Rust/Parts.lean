import EasyTierMac.Rust.Utf8

/-!
# Parts of an encoded text

UTF-8 finds its characters again: a piece of the bytes of a text that is itself the encoding of a
text is a piece of the text (`parts_of_toUtf8`). Only the first byte of a character is none of
those that continue one, so such a piece does not start in the middle of a character.
-/

namespace EasyTierMac.Rust

/-! ## Bytes that continue a character -/

/-- A byte that is not the first one of a character. -/
def Continues (b : UInt8) : Prop := 0x80 ≤ b ∧ b < 0xC0

/-- A character is one byte that continues nothing, and bytes that continue it. -/
theorem utf8Char_cons (c : Char) : ∃ b bs, utf8Char c = b :: bs ∧ ¬ Continues b ∧
    ∀ x ∈ bs, Continues x := by
  have hvalid : c.toNat < 0xD800 ∨ 0xDFFF < c.toNat ∧ c.toNat < 0x110000 := c.valid
  have hmore : ∀ n, Continues (UInt8.ofNat (0x80 + n % 0x40)) := by
    intro n
    constructor
    · rw [UInt8.le_iff_toNat_le, UInt8.toNat_ofNat', Nat.mod_eq_of_lt (by omega)]
      show 0x80 ≤ 0x80 + n % 0x40
      omega
    · rw [ofNat_lt_iff (by omega)]
      show 0x80 + n % 0x40 < 0xC0
      omega
  have hfirst : ∀ n, n < 256 → n < 0x80 ∨ 0xC0 ≤ n → ¬ Continues (UInt8.ofNat n) := by
    intro n hn h hcont
    have hlo : (0x80 : UInt8).toNat ≤ (UInt8.ofNat n).toNat := UInt8.le_iff_toNat_le.mp hcont.1
    have hhi : n < 0xC0 := (ofNat_lt_iff hn 0xC0).mp hcont.2
    rw [UInt8.toNat_ofNat', Nat.mod_eq_of_lt hn] at hlo
    have hlo' : 0x80 ≤ n := hlo
    omega
  have hall : ∀ (ns : List Nat), ∀ x ∈ ns.map fun n => UInt8.ofNat (0x80 + n % 0x40),
      Continues x := by
    intro ns x hx
    obtain ⟨n, -, rfl⟩ := List.mem_map.mp hx
    exact hmore n
  unfold utf8Char
  dsimp only
  split
  · exact ⟨_, _, rfl, hfirst _ (by omega) (by omega), hall []⟩
  · split
    · exact ⟨_, _, rfl, hfirst _ (by omega) (by omega), hall [_]⟩
    · split
      · exact ⟨_, _, rfl, hfirst _ (by omega) (by omega), hall [_, _]⟩
      · exact ⟨_, _, rfl, hfirst _ (by omega) (by omega), hall [_, _, _]⟩

/-! ## What is decoded was encoded -/

theorem contBits_eq {b : UInt8} {x : Nat} (h : contBits b = some x) :
    b = UInt8.ofNat (0x80 + x) ∧ x < 0x40 := by
  unfold contBits at h
  split at h
  · next hb =>
    obtain rfl := Option.some.inj h
    obtain ⟨hlo, hhi⟩ := Bool.and_eq_true_iff.mp hb
    have hlo' : 0x80 ≤ b.toNat := UInt8.le_iff_toNat_le.mp (of_decide_eq_true hlo)
    have hhi' : b.toNat < 0xC0 := UInt8.lt_iff_toNat_lt.mp (of_decide_eq_true hhi)
    refine ⟨?_, by omega⟩
    rw [Nat.add_sub_cancel' hlo', UInt8.ofNat_toNat]
  · cases h

theorem scalar_eq {lo n : Nat} {c : Char} (h : scalar lo n = some c) : c.toNat = n ∧ lo ≤ n := by
  unfold scalar at h
  split at h
  · next hn =>
    simp only [Bool.and_eq_true, decide_eq_true_eq, Bool.not_eq_true', Bool.and_eq_false_imp,
      decide_eq_false_iff_not] at hn
    obtain ⟨⟨hlo, hsurrogate⟩, hhi⟩ := hn
    have hvalid : n.isValidChar := by
      by_cases hn : n < 0xD800
      · exact .inl hn
      · exact .inr ⟨Nat.lt_of_not_le fun hle => hsurrogate (Nat.le_of_not_lt hn) (by omega), hhi⟩
    cases h
    refine ⟨?_, hlo⟩
    unfold Char.ofNat
    rw [dif_pos hvalid]
    rfl
  · cases h

/-- The range of a first byte. -/
theorem range_of_first {b lo hi : UInt8} (h : (decide (lo ≤ b) && decide (b < hi)) = true) :
    lo.toNat ≤ b.toNat ∧ b.toNat < hi.toNat := by
  obtain ⟨hlo, hhi⟩ := Bool.and_eq_true_iff.mp h
  exact ⟨UInt8.le_iff_toNat_le.mp (of_decide_eq_true hlo),
    UInt8.lt_iff_toNat_lt.mp (of_decide_eq_true hhi)⟩

theorem eq_ofNat {b : UInt8} {n : Nat} (h : n = b.toNat) : b = UInt8.ofNat n := by
  rw [h, UInt8.ofNat_toNat]

/-- Only the bytes of a text are decoded as it. -/
theorem eq_toUtf8_of_fromUtf8 {l : List UInt8} {t : Text} (h : fromUtf8 l = some t) :
    l = toUtf8 t := by
  fun_induction fromUtf8 l generalizing t with
  | case1 =>
    cases h
    rfl
  | case2 b rest hb ih =>
    obtain ⟨u, hu, rfl⟩ := Option.map_eq_some_iff.mp h
    have hb' : b.toNat < 0x80 := UInt8.lt_iff_toNat_lt.mp hb
    have hn : (Char.ofNat b.toNat).toNat = b.toNat := by
      unfold Char.ofNat
      rw [dif_pos (.inl (by omega))]
      rfl
    show b :: rest = utf8Char (Char.ofNat b.toNat) ++ toUtf8 u
    rw [← ih hu]
    unfold utf8Char
    rw [hn]
    dsimp only
    rw [if_pos hb', UInt8.ofNat_toNat]
    rfl
  | case3 b _ hb b₁ rest ih =>
    obtain ⟨x₁, h₁, h⟩ := Option.bind_eq_some_iff.mp h
    obtain ⟨c, hc, h⟩ := Option.bind_eq_some_iff.mp h
    obtain ⟨u, hu, rfl⟩ := Option.map_eq_some_iff.mp h
    obtain ⟨rfl, hx₁⟩ := contBits_eq h₁
    obtain ⟨hn, hlo⟩ := scalar_eq hc
    have hb' : 0xC0 ≤ b.toNat ∧ b.toNat < 0xE0 := range_of_first hb
    have hfirst : b = UInt8.ofNat (0xC0 + c.toNat / 0x40) := eq_ofNat (by omega)
    have hlast : c.toNat % 0x40 = x₁ := by omega
    show b :: UInt8.ofNat (0x80 + x₁) :: rest = utf8Char c ++ toUtf8 u
    rw [← ih hu]
    unfold utf8Char
    dsimp only
    rw [if_neg (by omega), if_pos (by omega), hlast, ← hfirst]
    rfl
  | case5 b _ _ hb b₁ b₂ rest ih =>
    obtain ⟨x₁, h₁, h⟩ := Option.bind_eq_some_iff.mp h
    obtain ⟨x₂, h₂, h⟩ := Option.bind_eq_some_iff.mp h
    obtain ⟨c, hc, h⟩ := Option.bind_eq_some_iff.mp h
    obtain ⟨u, hu, rfl⟩ := Option.map_eq_some_iff.mp h
    obtain ⟨rfl, hx₁⟩ := contBits_eq h₁
    obtain ⟨rfl, hx₂⟩ := contBits_eq h₂
    obtain ⟨hn, hlo⟩ := scalar_eq hc
    have hb' : 0xE0 ≤ b.toNat ∧ b.toNat < 0xF0 := range_of_first hb
    have hfirst : b = UInt8.ofNat (0xE0 + c.toNat / 0x1000) := eq_ofNat (by omega)
    have hmid : c.toNat / 0x40 % 0x40 = x₁ := by omega
    have hlast : c.toNat % 0x40 = x₂ := by omega
    show b :: UInt8.ofNat (0x80 + x₁) :: UInt8.ofNat (0x80 + x₂) :: rest = utf8Char c ++ toUtf8 u
    rw [← ih hu]
    unfold utf8Char
    dsimp only
    rw [if_neg (by omega), if_neg (by omega), if_pos (by omega), hmid, hlast, ← hfirst]
    rfl
  | case7 b _ _ _ hb b₁ b₂ b₃ rest ih =>
    obtain ⟨x₁, h₁, h⟩ := Option.bind_eq_some_iff.mp h
    obtain ⟨x₂, h₂, h⟩ := Option.bind_eq_some_iff.mp h
    obtain ⟨x₃, h₃, h⟩ := Option.bind_eq_some_iff.mp h
    obtain ⟨c, hc, h⟩ := Option.bind_eq_some_iff.mp h
    obtain ⟨u, hu, rfl⟩ := Option.map_eq_some_iff.mp h
    obtain ⟨rfl, hx₁⟩ := contBits_eq h₁
    obtain ⟨rfl, hx₂⟩ := contBits_eq h₂
    obtain ⟨rfl, hx₃⟩ := contBits_eq h₃
    obtain ⟨hn, hlo⟩ := scalar_eq hc
    have hb' : 0xF0 ≤ b.toNat ∧ b.toNat < 0xF8 := range_of_first hb
    have hfirst : b = UInt8.ofNat (0xF0 + c.toNat / 0x40000) := eq_ofNat (by omega)
    have hmid : c.toNat / 0x1000 % 0x40 = x₁ := by omega
    have hmid' : c.toNat / 0x40 % 0x40 = x₂ := by omega
    have hlast : c.toNat % 0x40 = x₃ := by omega
    show b :: UInt8.ofNat (0x80 + x₁) :: UInt8.ofNat (0x80 + x₂) :: UInt8.ofNat (0x80 + x₃) ::
      rest = utf8Char c ++ toUtf8 u
    rw [← ih hu]
    unfold utf8Char
    dsimp only
    rw [if_neg (by omega), if_neg (by omega), if_neg (by omega), hmid, hmid', hlast, ← hfirst]
    rfl
  | _ => cases h

/-! ## Parts -/

theorem fromUtf8_append (u : Text) (y : List UInt8) :
    fromUtf8 (toUtf8 u ++ y) = (fromUtf8 y).map (u ++ ·) := by
  induction u with
  | nil =>
    show fromUtf8 y = _
    cases fromUtf8 y <;> rfl
  | cons c u ih =>
    show fromUtf8 (utf8Char c ++ toUtf8 u ++ y) = _
    rw [List.append_assoc, fromUtf8_utf8Char, ih, Option.map_map]
    rfl

/-- **Self-synchronisation.** Where the bytes of a text are found in those of another one, the
text is found in it. -/
theorem parts_of_toUtf8 {t u : Text} {before after : List UInt8} (hu : u ≠ [])
    (h : toUtf8 t = before ++ (toUtf8 u ++ after)) :
    ∃ t₁ t₂, t = t₁ ++ (u ++ t₂) ∧ before = toUtf8 t₁ ∧ after = toUtf8 t₂ := by
  induction t generalizing before with
  | nil =>
    obtain ⟨c, cs, rfl⟩ := List.exists_cons_of_ne_nil hu
    obtain ⟨b, bs, hb, -, -⟩ := utf8Char_cons c
    have hne : toUtf8 (c :: cs) = b :: (bs ++ toUtf8 cs) := by
      show utf8Char c ++ toUtf8 cs = _
      rw [hb]
      rfl
    rw [hne] at h
    have hlen := congrArg List.length h
    simp [toUtf8] at hlen
  | cons d t ih =>
    have hwhole : toUtf8 (d :: t) = utf8Char d ++ toUtf8 t := rfl
    cases before with
    | nil =>
      -- the part starts where the text does
      have hdecode := fromUtf8_append u after
      rw [List.nil_append] at h
      rw [← h, fromUtf8_toUtf8] at hdecode
      obtain ⟨t₂, ht₂, he⟩ := Option.map_eq_some_iff.mp hdecode.symm
      exact ⟨[], t₂, he.symm, rfl, eq_toUtf8_of_fromUtf8 ht₂⟩
    | cons x before =>
      rw [hwhole] at h
      rcases List.append_eq_append_iff.mp h with ⟨rest, hbefore, hrest⟩ | ⟨rest, hd, hrest⟩
      · obtain ⟨t₁, t₂, rfl, rfl, rfl⟩ := ih hrest
        exact ⟨d :: t₁, t₂, rfl, hbefore, rfl⟩
      · -- the part starts in the character, or right after it
        cases rest with
        | nil =>
          rw [List.append_nil] at hd
          have hhere : toUtf8 t = [] ++ (toUtf8 u ++ after) := hrest.symm
          obtain ⟨t₁, t₂, rfl, h₁, rfl⟩ := ih hhere
          refine ⟨d :: t₁, t₂, rfl, ?_, rfl⟩
          show _ = utf8Char d ++ toUtf8 t₁
          rw [← h₁, List.append_nil, hd]
        | cons y rest =>
          obtain ⟨b, bs, hb, -, hcont⟩ := utf8Char_cons d
          rw [hb] at hd
          have hy : Continues y := hcont y (by rw [(List.cons.inj hd).2]; simp)
          obtain ⟨c, cs, rfl⟩ := List.exists_cons_of_ne_nil hu
          obtain ⟨b', bs', hb', hfirst, -⟩ := utf8Char_cons c
          have hstart : toUtf8 (c :: cs) = b' :: (bs' ++ toUtf8 cs) := by
            show utf8Char c ++ toUtf8 cs = _
            rw [hb']
            rfl
          rw [hstart] at hrest
          have he : b' = y := (List.cons.inj hrest).1
          exact absurd (he ▸ hy) hfirst

end EasyTierMac.Rust
