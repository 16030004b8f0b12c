import EasyTierMac.Rust.Lines

/-!
# Words and white space at the ends

The first word of a text is what `split_whitespace` yields first. It is the same before and
after `trim` (`firstWord_trim`), and only the next blank can end it (`firstWord_append`).
`rsplit` yields first what follows the last separator.
-/

namespace EasyTierMac.Rust

/-- `split_whitespace().next().unwrap_or("")`. -/
def firstWord (t : Text) : Text := (trimStart t).takeWhile fun c => !isWhitespace c

/-- `rsplit(ch).next()`: what follows the last `ch`. -/
def rsplitNext (ch : Char) (t : Text) : Text := t.rtakeWhile (· != ch)

example : firstWord "  mihomo -d x".toList = "mihomo".toList := by decide
example : rsplitNext '/' "/opt/bin/mihomo".toList = "mihomo".toList := by decide

/-! ## Trimming -/

/-- What `trim_end` takes off is white space. -/
theorem eq_trimEnd_append (t : Text) :
    ∃ w, (∀ c ∈ w, isWhitespace c = true) ∧ t = trimEnd t ++ w :=
  ⟨t.rtakeWhile isWhitespace, fun _ hc => List.mem_rtakeWhile_imp hc,
    (List.rdropWhile_append_rtakeWhile).symm⟩

theorem rdropWhile_append_of_all {p : Char → Bool} {w : Text} (hw : ∀ c ∈ w, p c = true)
    (t : Text) : (t ++ w).rdropWhile p = t.rdropWhile p := by
  unfold List.rdropWhile
  rw [List.reverse_append, List.dropWhile_append_of_pos]
  intro c hc
  exact hw c (List.mem_reverse.mp hc)

theorem trim_append_blank {w : Text} (hw : ∀ c ∈ w, isWhitespace c = true) (t : Text) :
    trim (t ++ w) = trim t := by
  unfold trim trimStart
  rw [List.dropWhile_append]
  split
  next hnil =>
    rw [List.isEmpty_iff.mp hnil, List.dropWhile_eq_nil_iff.mpr hw]
  next => exact rdropWhile_append_of_all hw _

theorem trim_stripCr (t : Text) : trim (stripCr t) = trim t := by
  rcases stripCr_cases t with ⟨hsame, -⟩ | hcr
  · rw [hsame]
  · conv_rhs => rw [hcr]
    refine (trim_append_blank (fun c hc => ?_) _).symm
    rw [List.mem_singleton.mp hc]
    decide

theorem trim_eq_self {t : Text} (hhead : ∀ c ∈ t.head?, isWhitespace c = false)
    (hlast : ∀ c ∈ t.getLast?, isWhitespace c = false) : trim t = t := by
  unfold trim
  rw [trimStart_of_head hhead]
  unfold trimEnd
  rw [List.rdropWhile_eq_self_iff]
  intro hne
  rw [hlast _ (List.getLast?_eq_some_getLast hne)]
  decide

theorem head_trim (t : Text) : ∀ c ∈ (trim t).head?, isWhitespace c = false := by
  intro c hc
  obtain ⟨-, -, -, hhead⟩ := eq_append_trimStart t
  obtain ⟨w, -, hend⟩ := eq_trimEnd_append (trimStart t)
  apply hhead c
  have hne : trimEnd (trimStart t) ≠ [] := by
    intro hnil
    rw [trim, hnil] at hc
    cases hc
  rw [hend, List.head?_append_of_ne_nil _ hne]
  exact hc

theorem last_trim (t : Text) : ∀ c ∈ (trim t).getLast?, isWhitespace c = false := by
  intro c hc
  have hne : trim t ≠ [] := by
    intro hnil
    rw [hnil] at hc
    cases hc
  have hlast := List.rdropWhile_last_not isWhitespace (trimStart t) hne
  rw [Option.mem_def, List.getLast?_eq_some_getLast hne, Option.some.injEq] at hc
  rw [← hc]
  exact Bool.not_eq_true _ ▸ hlast

/-! ## The first word -/

/-- A word ends where white space follows. -/
theorem takeWhile_append_blank {w : Text} (hw : ∀ c ∈ w.head?, isWhitespace c = true) (t : Text) :
    (t ++ w).takeWhile (fun c => !isWhitespace c) = t.takeWhile fun c => !isWhitespace c := by
  induction t with
  | nil =>
    cases w with
    | nil => rfl
    | cons c w => exact List.takeWhile_cons_of_neg (by simp [hw c rfl])
  | cons c t ih =>
    rw [List.cons_append, List.takeWhile_cons, List.takeWhile_cons, ih]

theorem firstWord_trim (t : Text) : firstWord (trim t) = firstWord t := by
  obtain ⟨w, hw, hend⟩ := eq_trimEnd_append (trimStart t)
  unfold firstWord
  rw [trimStart_of_head (head_trim t)]
  conv_rhs => rw [hend]
  exact (takeWhile_append_blank (fun c hc => hw c (List.mem_of_mem_head? hc)) _).symm

theorem firstWord_append_of_blank {a : Text} (ha : ∀ c ∈ a, isWhitespace c = true) (t : Text) :
    firstWord (a ++ t) = firstWord t := by
  unfold firstWord
  rw [trimStart_append ha]

/-- Nothing that follows a blank belongs to the first word of a text that has one. -/
theorem firstWord_append {a : Text} (ha : ∃ c ∈ a, isWhitespace c = false) {w : Text}
    (hw : ∀ c ∈ w.head?, isWhitespace c = true) : firstWord (a ++ w) = firstWord a := by
  have hne : a.dropWhile isWhitespace ≠ [] := by
    obtain ⟨c, hc, hblank⟩ := ha
    intro hnil
    have hall := List.dropWhile_eq_nil_iff.mp hnil c hc
    rw [hblank] at hall
    cases hall
  unfold firstWord trimStart
  rw [List.dropWhile_append, if_neg (by simpa using hne)]
  exact takeWhile_append_blank hw _

/-- A text without white space is its own first word. -/
theorem firstWord_eq_self {t : Text} (ht : ∀ c ∈ t, isWhitespace c = false) : firstWord t = t := by
  unfold firstWord
  rw [trimStart_of_head fun c hc => ht c (List.mem_of_mem_head? hc), List.takeWhile_eq_self_iff]
  intro c hc
  rw [ht c hc]
  rfl

/-! ## Splitting from the right -/

theorem rsplitNext_append {ch : Char} {t : Text} (ht : ch ∉ t) (u : Text) :
    rsplitNext ch (u ++ ch :: t) = t := by
  unfold rsplitNext List.rtakeWhile
  rw [List.reverse_append, List.reverse_cons, List.append_assoc, List.takeWhile_append_of_pos]
  · rw [List.singleton_append, List.takeWhile_cons_of_neg (by simp), List.append_nil,
      List.reverse_reverse]
  · intro c hc
    have hne : c ≠ ch := by
      rintro rfl
      exact ht (List.mem_reverse.mp hc)
    simpa using hne

/-- A text that has a `ch` in it, or none. -/
theorem rsplitNext_cases (ch : Char) (t : Text) :
    rsplitNext ch t = t ∨ ∃ u, t = u ++ ch :: rsplitNext ch t := by
  have hsplit : t = t.rdropWhile (· != ch) ++ rsplitNext ch t :=
    (List.rdropWhile_append_rtakeWhile).symm
  rcases List.eq_nil_or_concat (t.rdropWhile (· != ch)) with hnil | ⟨u, c, hu⟩
  · left
    rw [hnil, List.nil_append] at hsplit
    exact hsplit.symm
  · right
    have hne : t.rdropWhile (· != ch) ≠ [] := by simp [hu]
    have hlast := List.rdropWhile_last_not (· != ch) t hne
    have hc : c = ch := by simpa [hu] using hlast
    refine ⟨u, ?_⟩
    rw [hu, hc, List.concat_eq_append, List.append_assoc] at hsplit
    exact hsplit

end EasyTierMac.Rust
