import EasyTierMac.Rust.Words
import EasyTierMac.Weaving

/-!
# `str::replace` with nothing

`remove` takes out the copies of a word that a reader from the left meets
(`woven_remove`), and `removeAll` those of several words one after the other. A text that
begins and ends in something else than white space is found in a trimmed text where it is
found in the text itself (`infix_trim`); `trim_end_matches` can only take the end of such a
text off (`infix_trimEndMatches`).
-/

namespace EasyTierMac.Rust

open Weaving (Woven Layered)

/-! ## Removing -/

theorem removeFrom_eq (pat : Text) (n : Nat) (t : Text) :
    removeFrom pat n t = remove pat (t.drop n) := by
  induction t generalizing n with
  | nil => rw [List.drop_nil]; cases n <;> rfl
  | cons c t ih =>
    cases n with
    | zero => rfl
    | succ n => exact ih n

theorem remove_append {pat : Text} (hp : pat ≠ []) (t : Text) :
    remove pat (pat ++ t) = remove pat t := by
  obtain ⟨c, ps, rfl⟩ := List.exists_cons_of_ne_nil hp
  have hprefix : (c :: ps).isPrefixOf (c :: (ps ++ t)) = true :=
    List.isPrefixOf_iff_prefix.mpr ⟨t, rfl⟩
  show removeFrom (c :: ps) 0 (c :: (ps ++ t)) = _
  rw [removeFrom, if_pos ⟨hp, hprefix⟩, removeFrom_eq, List.length_cons, Nat.add_sub_cancel,
    List.drop_left]

theorem remove_cons {pat : Text} {c : Char} {t : Text} (h : ¬ pat <+: c :: t) :
    remove pat (c :: t) = c :: remove pat t := by
  unfold remove
  rw [removeFrom, if_neg]
  rintro ⟨-, hprefix⟩
  exact h (List.isPrefixOf_iff_prefix.mp hprefix)

/-- The text is woven from what `remove` leaves of it. -/
theorem woven_remove {pat : Text} (hp : pat ≠ []) (t : Text) : Woven pat (remove pat t) t := by
  induction hn : t.length using Nat.strong_induction_on generalizing t with
  | h n ih =>
    cases t with
    | nil => exact .last fun hin => hp (List.infix_nil.mp hin)
    | cons c t =>
      by_cases hprefix : pat <+: c :: t
      · obtain ⟨rest, hrest⟩ := hprefix
        have hlen := congrArg List.length hrest
        have hpos := List.length_pos_of_ne_nil hp
        rw [List.length_append] at hlen
        rw [← hrest, remove_append hp]
        exact (ih rest.length (by omega) rest rfl).append
      · rw [remove_cons hprefix]
        have hlt : t.length < n := by
          rw [← hn, List.length_cons]
          exact Nat.lt_succ_self _
        exact (ih t.length hlt t rfl).cons hprefix

/-- `replace(pat, "")` for one word after the other. -/
def removeAll (pats : List Text) (t : Text) : Text := pats.foldl (fun t pat => remove pat t) t

theorem layered_removeAll {pats : List Text} (hp : ∀ pat ∈ pats, pat ≠ []) (t : Text) :
    Layered pats (removeAll pats t) t := by
  induction pats generalizing t with
  | nil => exact .nil
  | cons pat pats ih =>
    have hrest := ih (fun q hq => hp q (List.mem_cons_of_mem pat hq)) (remove pat t)
    exact .cons (woven_remove (hp pat List.mem_cons_self) t) hrest

/-! ## Found in a trimmed text -/

theorem dropWhile_append_of_head {p : Char → Bool} {v : Text} (hv : ∀ c ∈ v.head?, p c = false)
    (x : Text) : (x ++ v).dropWhile p = x.dropWhile p ++ v := by
  rw [List.dropWhile_append]
  split
  next hnil =>
    rw [List.isEmpty_iff.mp hnil, List.nil_append]
    cases v with
    | nil => rfl
    | cons c v => exact List.dropWhile_cons_of_neg (by simp [hv c rfl])
  next => rfl

theorem rdropWhile_append_of_last {p : Char → Bool} {v : Text}
    (hv : ∀ c ∈ v.getLast?, p c = false) (y : Text) :
    (v ++ y).rdropWhile p = v ++ y.rdropWhile p := by
  unfold List.rdropWhile
  rw [List.reverse_append, dropWhile_append_of_head, List.reverse_append, List.reverse_reverse]
  intro c hc
  rw [List.head?_reverse] at hc
  exact hv c hc

/-- A text that neither begins nor ends with white space. -/
structure Solid (v : Text) : Prop where
  ne_nil : v ≠ []
  head : ∀ c ∈ v.head?, isWhitespace c = false
  last : ∀ c ∈ v.getLast?, isWhitespace c = false

/-- The text is found again, and behind it what is left of the rest. -/
theorem trim_append {v : Text} (hv : Solid v) (x y : Text) :
    trim (x ++ (v ++ y)) = trimStart x ++ (v ++ trimEnd y) := by
  have hhead : ∀ c ∈ (v ++ y).head?, isWhitespace c = false := by
    rw [List.head?_append_of_ne_nil _ hv.ne_nil]
    exact hv.head
  have hlast : ∀ c ∈ (trimStart x ++ v).getLast?, isWhitespace c = false := by
    rw [List.getLast?_append_of_ne_nil _ hv.ne_nil]
    exact hv.last
  have hstart : trimStart (x ++ (v ++ y)) = trimStart x ++ (v ++ y) :=
    dropWhile_append_of_head hhead x
  unfold trim
  rw [hstart, ← List.append_assoc, ← List.append_assoc]
  exact rdropWhile_append_of_last hlast y

theorem infix_trim {v : Text} (hv : Solid v) (s : Text) : v <:+: trim s ↔ v <:+: s := by
  constructor
  · intro h
    have hend : trim s <:+: trimStart s := (List.rdropWhile_prefix _ _).isInfix
    have hstart : trimStart s <:+: s := (List.dropWhile_suffix _).isInfix
    exact h.trans (hend.trans hstart)
  · rintro ⟨x, y, rfl⟩
    rw [List.append_assoc, trim_append hv]
    exact ⟨trimStart x, trimEnd y, List.append_assoc ..⟩

/-- What `trim` leaves of a text that is not blank. -/
theorem solid_trim {t : Text} (ht : ∃ c ∈ t, isWhitespace c = false) : Solid (trim t) := by
  obtain ⟨c, hc, hblank⟩ := ht
  have hsolid : Solid [c] := ⟨List.cons_ne_nil c [], by simp [hblank], by simp [hblank]⟩
  have hin : [c] <:+: trim t := by
    rw [infix_trim hsolid]
    obtain ⟨x, y, rfl⟩ := List.append_of_mem hc
    exact ⟨x, y, List.append_cons x c y ▸ rfl⟩
  refine ⟨?_, head_trim t, last_trim t⟩
  intro hnil
  rw [hnil] at hin
  exact List.cons_ne_nil c [] (List.infix_nil.mp hin)

/-- Where the text ends in a character that is taken off, something else must follow it. -/
theorem infix_trimEndMatches {ch : Char} {v : Text} (hv : v ≠ []) (s : Text) :
    v <:+: trimEndMatches ch s ↔
      ∃ x y, s = x ++ (v ++ y) ∧ (v.getLast? = some ch → ∃ c ∈ y, c ≠ ch) := by
  constructor
  · rintro ⟨x, y, he⟩
    refine ⟨x, y ++ s.rtakeWhile (· == ch), ?_, fun hlast => ?_⟩
    · rw [← List.append_assoc v, ← List.append_assoc x, ← List.append_assoc x, he]
      exact (List.rdropWhile_append_rtakeWhile).symm
    · by_contra hall
      push Not at hall
      -- then what is left would still end in it
      obtain ⟨w, hw⟩ : ∃ w, v = w ++ [ch] := by
        obtain ⟨w, d, hd⟩ := (List.eq_nil_or_concat v).resolve_left hv
        rw [List.concat_eq_append] at hd
        rw [hd, List.getLast?_concat, Option.some.injEq] at hlast
        exact ⟨w, hlast ▸ hd⟩
      have hsame : trimEndMatches ch (trimEndMatches ch s) = trimEndMatches ch s :=
        List.rdropWhile_idempotent _ s
      have hsplit : trimEndMatches ch s = (x ++ w) ++ (ch :: y) := by
        rw [← he, hw]
        simp only [List.append_assoc, List.cons_append, List.nil_append]
      have hcut : trimEndMatches ch (trimEndMatches ch s) = trimEndMatches ch (x ++ w) := by
        rw [hsplit]
        refine rdropWhile_append_of_all (fun c hc => ?_) _
        rw [beq_iff_eq]
        rcases List.mem_cons.mp hc with rfl | hc
        · rfl
        · exact hall c (List.mem_append_left _ hc)
      have hle : (trimEndMatches ch (x ++ w)).length ≤ (x ++ w).length :=
        (List.rdropWhile_prefix _ _).length_le
      rw [← hcut, hsame, hsplit] at hle
      simp only [List.length_append, List.length_cons] at hle
      omega
  · rintro ⟨x, y, rfl, hlast⟩
    -- up to something that is not taken off everything stays
    have hkeep {a b : Text} (ha : a.getLast? ≠ some ch) : a <:+: trimEndMatches ch (a ++ b) := by
      have hlast' : ∀ c ∈ a.getLast?, (c == ch) = false := by
        intro c hc
        rw [beq_eq_false_iff_ne]
        rintro rfl
        exact ha hc
      unfold trimEndMatches
      rw [rdropWhile_append_of_last hlast']
      exact (List.prefix_append ..).isInfix
    by_cases hv' : v.getLast? = some ch
    · obtain ⟨c, hc, hne⟩ := hlast hv'
      obtain ⟨y, b, rfl⟩ := List.append_of_mem hc
      have hin : v <:+: x ++ v ++ (y ++ [c]) := (List.infix_append x v _)
      have hsplit : x ++ (v ++ (y ++ c :: b)) = x ++ v ++ (y ++ [c]) ++ b := by simp
      rw [hsplit]
      refine hin.trans (hkeep ?_)
      rw [← List.append_assoc, List.getLast?_concat, ne_eq, Option.some.injEq]
      exact hne
    · rw [← List.append_assoc]
      refine (List.suffix_append x v).isInfix.trans (hkeep ?_)
      rw [List.getLast?_append_of_ne_nil _ hv]
      exact hv'

end EasyTierMac.Rust
