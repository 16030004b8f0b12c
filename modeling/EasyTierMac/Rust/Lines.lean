import EasyTierMac.Rust.Str

/-!
# Facts about the string functions

Lines are found again in the text they were put into (`lines_flatMap`), a word before a
blank is split off (`splitBlank_append`), a printed `i32` is parsed (`parseI32_toString`),
and `trim_start` takes off white space and nothing else.
-/

namespace EasyTierMac.Rust

/-! ## Lines -/

theorem untilNewline_append {l : Text} (hl : '\n' ∉ l) (r : Text) :
    untilNewline (l ++ '\n' :: r) = (l, some r) := by
  induction l with
  | nil => exact if_pos rfl
  | cons c l ih =>
    have hc : c ≠ '\n' := fun h => hl (h ▸ List.mem_cons_self)
    have hrest : '\n' ∉ l := fun h => hl (List.mem_cons_of_mem c h)
    rw [List.cons_append, untilNewline, if_neg hc, ih hrest]

theorem linesAux_flatMap {ls : List Text} (hls : ∀ l ∈ ls, '\n' ∉ l) {fuel : Nat}
    (hfuel : (ls.flatMap (· ++ ['\n'])).length ≤ fuel) :
    linesAux fuel (ls.flatMap (· ++ ['\n'])) = ls.map stripCr := by
  induction ls generalizing fuel with
  | nil =>
    cases fuel with
    | zero => rfl
    | succ fuel => exact if_pos rfl
  | cons l ls ih =>
    have htext : (l :: ls).flatMap (· ++ ['\n']) = l ++ '\n' :: ls.flatMap (· ++ ['\n']) := by
      rw [List.flatMap_cons, List.append_assoc, List.singleton_append]
    rw [htext] at hfuel ⊢
    rw [List.length_append, List.length_cons] at hfuel
    obtain ⟨fuel, rfl⟩ : ∃ n, fuel = n + 1 := ⟨fuel - 1, by omega⟩
    have hlen : (ls.flatMap (· ++ ['\n'])).length ≤ fuel :=
      Nat.le_trans (Nat.le_add_left _ _) (Nat.le_of_succ_le_succ hfuel)
    have hrest := ih (fun l' h => hls l' (List.mem_cons_of_mem l h)) hlen
    rw [linesAux, if_neg (by simp), untilNewline_append (hls l List.mem_cons_self)]
    dsimp only
    rw [hrest, List.map_cons]

/-- The lines of a text that was put together from lines. -/
theorem lines_flatMap {ls : List Text} (hls : ∀ l ∈ ls, '\n' ∉ l) :
    lines (ls.flatMap (· ++ ['\n'])) = ls.map stripCr :=
  linesAux_flatMap hls (Nat.le_refl _)

/-- Only the last character is taken off. -/
theorem stripCr_append {l : Text} (hl : l ≠ []) (t : Text) : stripCr (t ++ l) = t ++ stripCr l := by
  unfold stripCr
  rw [List.getLast?_append_of_ne_nil t hl]
  split
  · rw [List.dropLast_append_of_ne_nil hl]
  · rfl

theorem stripCr_cases (t : Text) :
    (stripCr t = t ∧ t.getLast? ≠ some '\r') ∨ t = stripCr t ++ ['\r'] := by
  unfold stripCr
  by_cases h : t.getLast? = some '\r'
  · rw [if_pos h]
    refine .inr ?_
    have hne : t ≠ [] := by
      rintro rfl
      cases h
    have hlast : t.getLast hne = '\r' := by
      rw [List.getLast?_eq_some_getLast hne] at h
      exact Option.some.inj h
    rw [← hlast]
    exact (List.dropLast_append_getLast hne).symm
  · rw [if_neg h]
    exact .inl ⟨rfl, h⟩

theorem stripCr_concat (t : Text) : stripCr (t ++ ['\r']) = t := by
  rw [stripCr_append (List.cons_ne_nil _ _)]
  exact List.append_nil t

theorem stripCr_cons {c : Char} (hc : c ≠ '\r') (t : Text) : stripCr (c :: t) = c :: stripCr t := by
  cases t with
  | nil =>
    unfold stripCr
    rw [if_neg]
    · rfl
    · intro h
      exact hc (Option.some.inj h)
  | cons d t => exact stripCr_append (List.cons_ne_nil d t) [c]

/-! ## White space -/

theorem trimStart_append {w : Text} (hw : ∀ c ∈ w, isWhitespace c = true) (t : Text) :
    trimStart (w ++ t) = trimStart t := by
  unfold trimStart
  rw [List.dropWhile_append_of_pos hw]

theorem trimStart_of_head {t : Text} (ht : ∀ c ∈ t.head?, isWhitespace c = false) :
    trimStart t = t := by
  cases t with
  | nil => rfl
  | cons c t =>
    have hc : isWhitespace c = false := ht c rfl
    unfold trimStart
    rw [List.dropWhile_cons_of_neg]
    rw [hc]
    decide

/-- What `trim_start` takes off is white space, and it leaves none in front. -/
theorem eq_append_trimStart (t : Text) :
    ∃ w, (∀ c ∈ w, isWhitespace c = true) ∧ t = w ++ trimStart t ∧
      ∀ c ∈ (trimStart t).head?, isWhitespace c = false := by
  refine ⟨t.takeWhile isWhitespace, fun c hc => List.mem_takeWhile_imp hc,
    List.takeWhile_append_dropWhile.symm, fun c hc => ?_⟩
  have hnot := List.head?_dropWhile_not isWhitespace t
  unfold trimStart at hc
  rw [Option.mem_def.mp hc] at hnot
  simpa using hnot

theorem splitBlank_append {l : Text} (hl : ∀ c ∈ l, isWhitespace c = false) {b : Char}
    (hb : isWhitespace b = true) (r : Text) : splitBlank (l ++ b :: r) = (l, some r) := by
  induction l with
  | nil => exact if_pos hb
  | cons c l ih =>
    have hc : ¬isWhitespace c = true := by
      rw [hl c List.mem_cons_self]
      decide
    rw [List.cons_append, splitBlank, if_neg hc, ih fun d hd => hl d (List.mem_cons_of_mem c hd)]

/-! ## Numbers -/

theorem isWhitespace_digit {c : Char} (hc : c.isDigit = true) : isWhitespace c = false := by
  simp only [Char.isDigit, Bool.and_eq_true, decide_eq_true_eq, ge_iff_le,
    UInt32.le_iff_toNat_le] at hc
  have hlo : 48 ≤ c.toNat := hc.1
  have hhi : c.toNat ≤ 57 := hc.2
  simp only [isWhitespace, Bool.or_eq_false_iff, Bool.and_eq_false_imp, decide_eq_true_eq,
    decide_eq_false_iff_not, beq_eq_false_iff_ne]
  omega

theorem foldl_digits {t : Text} (ht : ∀ c ∈ t, c.isDigit = true) (n : Nat) :
    t.foldl (fun acc c => acc.bind fun n =>
      if c.isDigit then some (n * 10 + (c.toNat - 0x30)) else none) (some n)
        = some (Nat.ofDigitChars 10 t n) := by
  induction t generalizing n with
  | nil => rfl
  | cons c t ih =>
    rw [List.foldl_cons, Option.bind_some, if_pos (ht c List.mem_cons_self),
      ih fun d hd => ht d (List.mem_cons_of_mem c hd), Nat.mul_comm]
    rfl

theorem digits_toDigits (n : Nat) : digits (Nat.toDigits 10 n) = some n := by
  unfold digits
  rw [if_neg Nat.toDigits_ne_nil,
    foldl_digits fun c hc => Nat.isDigit_of_mem_toDigits (by decide) (by decide) hc,
    Nat.ofDigitChars_ten_toDigits]

/-- The text of an integer: its digits, after a sign if it is negative. -/
theorem toList_toString (n : Int) :
    (toString n).toList
      = if n < 0 then '-' :: Nat.toDigits 10 n.natAbs else Nat.toDigits 10 n.natAbs := by
  cases n with
  | ofNat n =>
    rw [if_neg (by simp)]
    exact Nat.toList_repr
  | negSucc n =>
    rw [if_pos (Int.negSucc_lt_zero n)]
    show ("-" ++ (n + 1).repr).toList = _
    rw [String.toList_append, Nat.toList_repr]
    rfl

theorem parseI32_toString (n : Int32) : parseI32 (toString n.toInt).toList = some n := by
  have hlo := n.le_toInt
  have hhi := n.toInt_lt
  have hrange : (-(2 ^ 31 : Int) ≤ n.toInt && n.toInt < 2 ^ 31) = true := by
    rw [Bool.and_eq_true, decide_eq_true_eq, decide_eq_true_eq]
    exact ⟨hlo, hhi⟩
  rw [toList_toString]
  by_cases hn : n.toInt < 0
  · have habs : -(n.toInt.natAbs : Int) = n.toInt := by omega
    rw [if_pos hn]
    show (digits (Nat.toDigits 10 n.toInt.natAbs)).bind _ = _
    rw [digits_toDigits, Option.bind_some]
    dsimp only
    rw [habs, if_pos hrange, Int32.ofInt_toInt]
  · have habs : (n.toInt.natAbs : Int) = n.toInt := by omega
    rw [if_neg hn]
    have hparse : parseI32 (Nat.toDigits 10 n.toInt.natAbs)
        = (digits (Nat.toDigits 10 n.toInt.natAbs)).bind fun k =>
          if -(2 ^ 31 : Int) ≤ (k : Int) && (k : Int) < 2 ^ 31 then some (Int32.ofInt k)
          else none := by
      -- a digit is not a sign
      obtain ⟨d, ds, hd⟩ :=
        List.exists_cons_of_ne_nil (Nat.toDigits_ne_nil (n := n.toInt.natAbs) (b := 10))
      have hdigit : d.isDigit = true :=
        Nat.isDigit_of_mem_toDigits (by decide) (by decide) (hd ▸ List.mem_cons_self)
      rw [hd]
      unfold parseI32
      split
      next heq => cases heq; cases hdigit
      next heq => cases heq; cases hdigit
      next => rfl
    rw [hparse, digits_toDigits, Option.bind_some]
    rw [habs, if_pos hrange, Int32.ofInt_toInt]

/-- There is no white space in the text of an integer. -/
theorem isWhitespace_toString {n : Int} {c : Char} (hc : c ∈ (toString n).toList) :
    isWhitespace c = false := by
  have hdigits : c ∈ Nat.toDigits 10 n.natAbs → isWhitespace c = false := fun h =>
    isWhitespace_digit (Nat.isDigit_of_mem_toDigits (by decide) (by decide) h)
  rw [toList_toString] at hc
  split at hc
  · rcases List.mem_cons.mp hc with rfl | hc
    · decide
    · exact hdigits hc
  · exact hdigits hc

end EasyTierMac.Rust
