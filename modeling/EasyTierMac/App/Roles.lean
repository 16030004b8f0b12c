import EasyTierMac.App.Moves

/-!
# Who is suspended in what

A task that changes the connection or polls has a role, from its first turn on and until it
ends. `Has s r i` says that task `i` is in role `r`; `has_turn` is what a turn makes of the
roles. Everything that the app does is one of a few kinds of turn then: the task keeps its
role, ends it, or begins one, and new tasks get one or none.
-/

namespace EasyTierMac.App

inductive Role
  | connect
  | disconnect
  | restart
  | poll
  deriving DecidableEq, Repr

/-- The role of a task that stands at this code. A call of `connect()` or `disconnect()` that
has not begun has none. -/
def Code.role : Code → Option Role
  | .connect .start | .disconnect .start => none
  | .connect _ => some .connect
  | .disconnect _ => some .disconnect
  | .restart _ _ => some .restart
  | .poll _ => some .poll
  | .revalidate _ | .refresh _ | .install _ | .uninstall _ => none

theorem Code.role_of_isErrand {c : Code} (h : c.isErrand = true) : c.role = none := by
  cases c with
  | refresh pc | install pc | uninstall pc => rfl
  | _ => cases h

/-- The task `i` is in role `r`. -/
def Has (s : Main) (r : Role) (i : Nat) : Prop := ∃ c, ⟨i, c⟩ ∈ s.tasks ∧ c.role = some r

/-- The task `i` is in role `r` and has not been cancelled. -/
def Live (s : Main) (r : Role) (i : Nat) : Prop := Has s r i ∧ i ∉ s.cancelled

variable {s m : Main} {who : Option Nat} {d : Option Code} {new : List Code} {r r' : Role} {i : Nat}

theorem has_turn (ht : s.Turn who d new m) : Has m r i ↔ Has s r i ∧ who ≠ some i ∨
    who = some i ∧ (∃ c, d = some c ∧ c.role = some r) ∨
      ∃ c, Actor.Created s.next new ⟨i, c⟩ ∧ c.role = some r := by
  constructor
  · rintro ⟨c, hmem, hr⟩
    rcases ht.cases hmem with ⟨hold, hne⟩ | ⟨hown, hc⟩ | hnew
    · exact .inl ⟨⟨c, hold, hr⟩, hne⟩
    · exact .inr (.inl ⟨hown, c, hc, hr⟩)
    · exact .inr (.inr ⟨c, hnew, hr⟩)
  · rintro (⟨⟨c, hold, hr⟩, hne⟩ | ⟨hown, c, hc, hr⟩ | ⟨c, hnew, hr⟩)
    · exact ⟨c, ht.keep hold hne, hr⟩
    · exact ⟨c, (ht.mem _).mpr (.inr (.inl ⟨hown, hc⟩)), hr⟩
    · exact ⟨c, (ht.mem _).mpr (.inr (.inr hnew)), hr⟩

/-- The roles after a turn that creates tasks without a role, if any, and in which the task
keeps its role or ends. -/
theorem has_of_turn (ht : s.Turn who d new m) (hnew : ∀ c ∈ new, c.role = none)
    (hd : ∀ i c' r, who = some i → d = some c' → c'.role = some r → Has s r i)
    (h : Has m r i) : Has s r i := by
  rcases (has_turn ht).mp h with ⟨hold, -⟩ | ⟨hown, c, hc, hr⟩ | ⟨c, hcreated, hr⟩
  · exact hold
  · exact hd i c r hown hc hr
  · rw [hnew c hcreated.mem] at hr
    cases hr

/-- A role that is not the task's is not touched by its turn. -/
theorem has_of_ne (ht : s.Turn who d new m) (h : Has s r i) (hne : who ≠ some i) : Has m r i :=
  (has_turn ht).mpr (.inl ⟨h, hne⟩)

theorem has_stay {id : Nat} {c c' : Code} (hw : s.WellFormed) (hmem : ⟨id, c⟩ ∈ s.tasks)
    (ht : s.Turn (some id) (some c') [] m) (hrole : c'.role = c.role) : Has m r i ↔ Has s r i := by
  constructor
  · refine has_of_turn ht (by simp) fun j c₁ r' hj hc₁ hr => ?_
    cases hj
    cases hc₁
    exact ⟨c, hmem, hrole ▸ hr⟩
  · intro h
    by_cases hi : i = id
    · obtain ⟨c₁, hmem₁, hr⟩ := h
      have he := hw.unique _ hmem _ hmem₁ hi.symm
      injection he with _ he
      subst he
      exact (has_turn ht).mpr (.inr (.inl ⟨by rw [hi], c', rfl, hrole ▸ hr⟩))
    · exact has_of_ne ht h fun he => hi (Option.some.inj he).symm

theorem has_finish {id : Nat} (ht : s.Turn (some id) none [] m) :
    Has m r i ↔ Has s r i ∧ i ≠ id := by
  rw [has_turn ht]
  simp [Actor.not_created_nil, eq_comm]

/-- A task without a role ends. -/
theorem has_done {id : Nat} {c : Code} (hw : s.WellFormed) (hmem : ⟨id, c⟩ ∈ s.tasks)
    (hnone : c.role = none) (ht : s.Turn (some id) none [] m) : Has m r i ↔ Has s r i := by
  rw [has_finish ht, and_iff_left_iff_imp]
  rintro ⟨c', hmem', hr⟩ rfl
  have he := hw.unique _ hmem _ hmem' rfl
  injection he with _ he
  rw [← he, hnone] at hr
  cases hr

/-- The task begins a role. -/
theorem has_begin {id : Nat} {c c' : Code} {r₀ : Role} (hw : s.WellFormed)
    (hmem : ⟨id, c⟩ ∈ s.tasks) (hnone : c.role = none) (ht : s.Turn (some id) (some c') [] m)
    (hrole : c'.role = some r₀) : Has m r i ↔ Has s r i ∨ r = r₀ ∧ i = id := by
  rw [has_turn ht]
  constructor
  · rintro (⟨hold, -⟩ | ⟨hown, c₁, hc₁, hr⟩ | ⟨c₁, hcreated, -⟩)
    · exact .inl hold
    · cases hc₁
      rw [hrole] at hr
      cases hr
      cases hown
      exact .inr ⟨rfl, rfl⟩
    · exact absurd hcreated Actor.not_created_nil
  · rintro (⟨c₁, hmem₁, hr⟩ | ⟨rfl, rfl⟩)
    · refine .inl ⟨⟨c₁, hmem₁, hr⟩, fun he => ?_⟩
      have he := hw.unique _ hmem _ hmem₁ (Option.some.inj he)
      injection he with _ he
      rw [← he, hnone] at hr
      cases hr
    · exact .inr (.inl ⟨rfl, c', rfl, hrole⟩)

/-- A task has one role. -/
theorem Has.unique (h : Has s r i) (h' : Has s r' i) (hw : s.WellFormed) : r = r' := by
  obtain ⟨c, hmem, hr⟩ := h
  obtain ⟨c', hmem', hr'⟩ := h'
  have he := hw.unique _ hmem _ hmem' rfl
  injection he with _ he
  rw [he, hr'] at hr
  injection hr with hr
  exact hr.symm

end EasyTierMac.App
