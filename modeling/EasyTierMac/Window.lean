import Mathlib.Data.List.DropRight

/-!
# The last values of a stream

A program that shows the last `n` values of a stream trims its list at every step, and keeps of
the stream itself only the element before the next one. `between` says what the values are in
terms of the whole stream, `List.rtake` which of them are left; `rtake_append_rtake` and
`between_concat` are the step that such a program takes.
-/

namespace EasyTierMac

variable {α β : Type*} {f : α → α → Option β} {l : List α} {n : Nat}

/-- Trimming early does not change what is left in the end. -/
theorem rtake_append_rtake (l m : List α) : (l.rtake n ++ m).rtake n = (l ++ m).rtake n := by
  unfold List.rtake
  rw [List.length_append, List.length_append, List.length_drop]
  rcases Nat.le_total l.length n with hle | hge
  · have hzero : l.length - n = 0 := by omega
    rw [hzero, List.drop_zero, Nat.sub_zero]
  · rw [List.drop_append, List.drop_append, List.drop_drop, List.length_drop]
    congr 1
    · congr 1
      omega
    · congr 1
      omega

theorem length_rtake_le (l : List α) : (l.rtake n).length ≤ n := by
  unfold List.rtake
  rw [List.length_drop]
  omega

/-- What `f` makes of the elements of a list and their successors. -/
def between (f : α → α → Option β) : List α → List β
  | a :: b :: l => (f a b).toList ++ between f (b :: l)
  | _ => []

@[simp] theorem between_nil : between f [] = [] := rfl
@[simp] theorem between_singleton (a : α) : between f [a] = [] := rfl
@[simp] theorem between_cons_cons (a b : α) :
    between f (a :: b :: l) = (f a b).toList ++ between f (b :: l) := rfl

/-- One more element gives at most one more value. -/
theorem between_concat (b : α) : ∀ l : List α,
    between f (l ++ [b]) = between f l ++ (l.getLast?.bind fun a => f a b).toList
  | [] => rfl
  | [a] => by simp
  | a :: c :: l => by
    have ih := between_concat b (c :: l)
    rw [List.cons_append, List.cons_append, between_cons_cons, between_cons_cons, List.append_assoc]
    rw [List.cons_append] at ih
    rw [ih, List.getLast?_cons_cons]

/-- A value is made of two elements of the list. -/
theorem exists_of_mem_between {x : β} : ∀ {l : List α}, x ∈ between f l →
    ∃ a ∈ l, ∃ b ∈ l, f a b = some x
  | [], h => by simp at h
  | [a], h => by simp at h
  | a :: c :: l, h => by
    rw [between_cons_cons, List.mem_append, Option.mem_toList] at h
    rcases h with h | h
    · exact ⟨a, List.mem_cons_self, c, List.mem_cons_of_mem _ List.mem_cons_self, h⟩
    · obtain ⟨d, hd, e, he, hf⟩ := exists_of_mem_between h
      exact ⟨d, List.mem_cons_of_mem _ hd, e, List.mem_cons_of_mem _ he, hf⟩

/-- Values are in order if a value is in order with those of what comes after it. -/
theorem pairwise_between {R : α → α → Prop} {r : β → β → Prop}
    (hr : ∀ a b c d x y, f a b = some x → f c d = some y → b = c ∨ R b c → r x y) :
    ∀ {l : List α}, l.Pairwise R → (between f l).Pairwise r
  | [], _ => .nil
  | [a], _ => .nil
  | a :: b :: l, h => by
    obtain ⟨-, htail⟩ := List.pairwise_cons.mp h
    obtain ⟨hb, -⟩ := List.pairwise_cons.mp htail
    rw [between_cons_cons, List.pairwise_append]
    refine ⟨?_, pairwise_between hr htail, ?_⟩
    · cases f a b with
      | none => exact .nil
      | some x => exact List.pairwise_singleton _ _
    · intro x hx y hy
      rw [Option.mem_toList] at hx
      obtain ⟨c, hc, d, -, hf⟩ := exists_of_mem_between hy
      refine hr a b c d x y hx hf ?_
      rcases List.mem_cons.mp hc with he | hc
      · exact .inl he.symm
      · exact .inr (hb c hc)

end EasyTierMac
