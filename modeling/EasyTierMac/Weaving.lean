import Mathlib.Data.List.Infix

/-!
# Words woven into a text

A text over any alphabet is read from the left, and the copies of a word `p` that are met
are taken out; a copy that overlaps one that has been taken out is not met. `Woven p m s`
says of `s` how it is put together from what is left, `m`: pieces of `m` with a copy of `p`
after each but the last one, where a piece and the copy after it have no copy before that
one (`Closes`), and the last piece has none at all. Every text is woven from exactly one
other one (`Woven.exists`, `Woven.unique`).

`Layered ps m s` is the same for several words, which are taken out of the whole text one
after the other. Taking out the next word can bring a copy of an earlier one together.
-/

namespace EasyTierMac.Weaving

variable {α : Type*} {p k m m' s : List α}

/-! ## One word -/

/-- The only copy of `p` in `k` with `p` after it is the one at the end. -/
def Closes (p k : List α) : Prop := ∀ x y, k ++ p = x ++ (p ++ y) → y = []

/-- `s` is `m` with copies of `p` woven in, which a reader from the left meets. -/
inductive Woven (p : List α) : List α → List α → Prop
  | last {s : List α} (h : ¬ p <:+: s) : Woven p s s
  | copy {k m s : List α} (h : Closes p k) (rest : Woven p m s) :
      Woven p (k ++ m) (k ++ (p ++ s))

theorem Closes.nil (p : List α) : Closes p [] := by
  intro x y h
  have hlen := congrArg List.length h
  simp only [List.nil_append, List.length_append] at hlen
  exact List.eq_nil_of_length_eq_zero (by omega)

/-- A character that no copy starts at belongs to what is left. -/
theorem Woven.cons {c : α} (h : Woven p m s) (hc : ¬ p <+: c :: s) :
    Woven p (c :: m) (c :: s) := by
  cases h with
  | last hs =>
    refine .last fun hin => ?_
    rcases List.infix_cons_iff.mp hin with hp | hin
    · exact hc hp
    · exact hs hin
  | @copy k m s hk rest =>
    refine Woven.copy (k := c :: k) (fun x y he => ?_) rest
    cases x with
    | nil =>
      refine absurd ?_ hc
      rw [← List.append_assoc, ← List.cons_append, ← List.cons_append]
      have hp : p <+: c :: k ++ p := ⟨y, he.symm⟩
      exact hp.trans (List.prefix_append _ s)
    | cons d x =>
      rw [List.cons_append, List.cons_append, List.cons.injEq] at he
      exact hk x y he.2

/-- A copy at the front is met. -/
theorem Woven.append (h : Woven p m s) : Woven p m (p ++ s) :=
  .copy (.nil p) h

/-- Of two copies in a text neither is met before the other one. -/
theorem Closes.eq_nil {y s' : List α} (h : Closes p (k ++ y)) (he : p ++ s = y ++ (p ++ s')) :
    y = [] := by
  have hp : p <+: y ++ p := by
    have hleft : p <+: (y ++ p) ++ s' := ⟨s, by rw [he, List.append_assoc]⟩
    refine List.prefix_of_prefix_length_le hleft (List.prefix_append _ _) ?_
    rw [List.length_append]
    omega
  obtain ⟨z, hz⟩ := hp
  have hnil := h k z (by rw [List.append_assoc, hz])
  have hlen := congrArg List.length hz
  rw [hnil, List.length_append, List.length_append, List.length_nil] at hlen
  exact List.eq_nil_of_length_eq_zero (by omega)

/-- What a reader takes out is determined by the text. -/
theorem Woven.unique (h : Woven p m s) (h' : Woven p m' s) : m = m' := by
  induction h generalizing m' with
  | @last s hs =>
    cases h' with
    | last => rfl
    | @copy k m s => exact absurd ⟨k, s, List.append_assoc ..⟩ hs
  | @copy k m s hk _ ih =>
    generalize htext : k ++ (p ++ s) = text at h'
    cases h' with
    | last hs => exact absurd ⟨k, s, by rw [List.append_assoc, htext]⟩ hs
    | @copy k' m' s' hk' rest' =>
      have hkk : k = k' := by
        rcases List.append_eq_append_iff.mp htext with ⟨y, hy, hrest⟩ | ⟨y, hy, hrest⟩
        · have hnil := (hy ▸ hk').eq_nil hrest
          rw [hy, hnil, List.append_nil]
        · have hnil := (hy ▸ hk).eq_nil hrest
          rw [hy, hnil, List.append_nil]
      subst hkk
      have hs : s = s' := List.append_cancel_left (List.append_cancel_left htext)
      subst hs
      rw [ih rest']

/-! ## Several words -/

/-- `s` is woven from `m` with the words `ps`: the first one is taken out of `s` first. -/
inductive Layered : List (List α) → List α → List α → Prop
  | nil {s : List α} : Layered [] s s
  | cons {p m r s : List α} {ps : List (List α)} (h : Woven p r s) (rest : Layered ps m r) :
      Layered (p :: ps) m s

theorem Layered.unique {ps : List (List α)} (h : Layered ps m s) (h' : Layered ps m' s) :
    m = m' := by
  induction h with
  | nil =>
    cases h'
    rfl
  | cons hw _ ih =>
    cases h' with
    | cons hw' rest' =>
      have hr := hw.unique hw'
      subst hr
      exact ih rest'

/-! ## Letters of the words -/

/-- A copy of `p` cannot begin in a text that lacks a letter of `p`. -/
theorem Closes.of_not_mem {c : α} (hc : c ∈ p) (hk : c ∉ k) : Closes p k := by
  classical
  intro x y he
  obtain ⟨a, b, hp, ha⟩ := List.eq_append_cons_of_mem hc
  -- the first `c` is at the same place in both readings
  have hx : c ∉ x := by
    have hcount := congrArg (List.count c) he
    rw [List.count_append, List.count_append, List.count_append, List.count_eq_zero.mpr hk]
      at hcount
    exact List.count_eq_zero.mp (by omega)
  have hka : c ∉ k ++ a := fun h => (List.mem_append.mp h).elim hk ha
  have hxa : c ∉ x ++ a := fun h => (List.mem_append.mp h).elim hx ha
  have hfirst : (k ++ a) ++ c :: b = (x ++ a) ++ c :: (b ++ y) := by
    rw [hp] at he
    simpa only [List.append_assoc, List.cons_append] using he
  have hlen : (k ++ a).length = (x ++ a).length := by
    have hidx := congrArg (List.idxOf c) hfirst
    rw [List.idxOf_append_of_notMem hka, List.idxOf_append_of_notMem hxa, List.idxOf_cons_self,
      List.idxOf_cons_self] at hidx
    exact hidx
  have htail := List.append_inj_right hfirst hlen
  rw [List.cons.injEq] at htail
  exact List.self_eq_append_right.mp htail.2

/-- Nothing is made up: what is left has only letters of the text. -/
theorem Woven.subset (h : Woven p m s) : m ⊆ s := by
  induction h with
  | last => exact List.Subset.refl _
  | @copy k m s _ _ ih =>
    intro c hc
    rcases List.mem_append.mp hc with hc | hc
    · exact List.mem_append_left _ hc
    · exact List.mem_append_right _ (List.mem_append_right _ (ih hc))

theorem Layered.subset {ps : List (List α)} (h : Layered ps m s) : m ⊆ s := by
  induction h with
  | nil => exact List.Subset.refl _
  | cons hw _ ih => exact List.Subset.trans ih hw.subset

/-- A text with one copy of `p` in it, and a letter of `p` that is nowhere else. -/
theorem Woven.of_foreign {c : α} {k s : List α} (hc : c ∈ p) (hk : c ∉ k) (hs : c ∉ s) :
    Woven p (k ++ s) (k ++ (p ++ s)) :=
  .copy (.of_not_mem hc hk) (.last fun hin => hs (hin.subset hc))

end EasyTierMac.Weaving
