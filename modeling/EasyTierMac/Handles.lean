import EasyTierMac.Actor

/-!
# Handles and flags

An actor that wants one task of a kind at a time writes this down in its heap. A *handle* is
the number of the task, so that it can be cancelled before the next one is created: other
tasks of the kind may still be there, but they have been cancelled. A *flag* is up while a
task of the kind is under way, and the next one does not begin before it is down.

`Handle` and `Flag` are these disciplines as invariants, `Guarded` is what tasks of a kind that
have not been cancelled rely on. Each has a lemma for every way in which a turn can go;
`Holds p a i` says that task `i` is of the kind `p`, and `holds_turn` what a turn makes of it.
-/

namespace EasyTierMac.Actor

variable {σ κ : Type*} {p : κ → Bool} {a b : Actor σ κ} {i id : Nat} {c : κ} {d : Option κ}
  {new : List κ} {who : Option Nat}

/-- The task `i` is of the kind `p`. -/
def Holds (p : κ → Bool) (a : Actor σ κ) (i : Nat) : Prop := ∃ c, ⟨i, c⟩ ∈ a.tasks ∧ p c = true

/-! ## Kinds and turns -/

theorem holds_turn (ht : Turn a who d new b) : Holds p b i ↔ Holds p a i ∧ who ≠ some i ∨
    who = some i ∧ d.any p = true ∨ ∃ c, Created a.next new ⟨i, c⟩ ∧ p c = true := by
  constructor
  · rintro ⟨c, hmem, hp⟩
    rcases ht.cases hmem with ⟨hold, hne⟩ | ⟨hown, hc⟩ | hnew
    · exact .inl ⟨⟨c, hold, hp⟩, hne⟩
    · refine .inr (.inl ⟨hown, ?_⟩)
      rw [hc]
      exact hp
    · exact .inr (.inr ⟨c, hnew, hp⟩)
  · rintro (⟨⟨c, hold, hp⟩, hne⟩ | ⟨hown, hd⟩ | ⟨c, hnew, hp⟩)
    · exact ⟨c, ht.keep hold hne, hp⟩
    · obtain ⟨c, hc, hp⟩ := (Option.any_eq_true _ _).mp hd
      exact ⟨c, (ht.mem _).mpr (.inr (.inl ⟨hown, hc⟩)), hp⟩
    · exact ⟨c, (ht.mem _).mpr (.inr (.inr hnew)), hp⟩

theorem holds_of_mem (hw : a.WellFormed) (hmem : ⟨id, c⟩ ∈ a.tasks) :
    Holds p a id ↔ p c = true := by
  constructor
  · rintro ⟨k, hk, hp⟩
    have he := hw.unique _ hk _ hmem rfl
    injection he with _ he
    exact he ▸ hp
  · intro hp
    exact ⟨c, hmem, hp⟩

/-- The kinds after a turn that creates no task of the kind. -/
theorem holds_of_turn (ht : Turn a who d new b) (hnew : ∀ c ∈ new, p c = false) :
    Holds p b i ↔ Holds p a i ∧ who ≠ some i ∨ who = some i ∧ d.any p = true := by
  rw [holds_turn ht]
  have hno : ¬ ∃ c, Created a.next new ⟨i, c⟩ ∧ p c = true := by
    rintro ⟨c, hcreated, hp⟩
    rw [hnew c hcreated.mem] at hp
    cases hp
  simp only [hno, or_false]

theorem holds_user (ht : Turn a none none new b) (hnew : ∀ c ∈ new, p c = false) :
    Holds p b i ↔ Holds p a i := by
  rw [holds_of_turn ht hnew]
  simp

/-- The task whose turn it is stays of the kind, or not of the kind. -/
theorem holds_stay (hw : a.WellFormed) (hmem : ⟨id, c⟩ ∈ a.tasks) (ht : Turn a (some id) d new b)
    (hnew : ∀ c ∈ new, p c = false) (hd : d.any p = p c) : Holds p b i ↔ Holds p a i := by
  rw [holds_of_turn ht hnew, hd]
  constructor
  · rintro (⟨h, -⟩ | ⟨hid, hp⟩)
    · exact h
    · rw [← Option.some.inj hid]
      exact (holds_of_mem hw hmem).mpr hp
  · intro h
    by_cases hid : i = id
    · rw [hid] at h ⊢
      exact .inr ⟨rfl, (holds_of_mem hw hmem).mp h⟩
    · exact .inl ⟨h, fun he => hid (Option.some.inj he).symm⟩

/-- The task whose turn it is does not become one of the kind. -/
theorem holds_sub (hw : a.WellFormed) (hmem : ⟨id, c⟩ ∈ a.tasks) (ht : Turn a (some id) d new b)
    (hnew : ∀ c ∈ new, p c = false) (hd : d.any p = true → p c = true) (h : Holds p b i) :
    Holds p a i := by
  rcases (holds_of_turn ht hnew).mp h with ⟨hold, -⟩ | ⟨hid, hp⟩
  · exact hold
  · rw [← Option.some.inj hid]
    exact (holds_of_mem hw hmem).mpr (hd hp)

/-- The task whose turn it is is of the kind afterwards. -/
theorem holds_begin (ht : Turn a (some id) d [] b) (hd : d.any p = true) :
    Holds p b i ↔ Holds p a i ∨ i = id := by
  rw [holds_of_turn ht (by simp), hd]
  constructor
  · rintro (⟨hold, -⟩ | ⟨hid, -⟩)
    · exact .inl hold
    · exact .inr (Option.some.inj hid).symm
  · intro hi
    by_cases hid : i = id
    · rw [hid]
      exact .inr ⟨rfl, rfl⟩
    · exact .inl ⟨hi.resolve_right hid, fun he => hid (Option.some.inj he).symm⟩

/-- The task whose turn it is is not of the kind afterwards. -/
theorem holds_end (ht : Turn a (some id) d [] b) (hd : d.any p = false) :
    Holds p b i ↔ Holds p a i ∧ i ≠ id := by
  rw [holds_of_turn ht (by simp), hd]
  constructor
  · rintro (⟨hold, hne⟩ | ⟨-, hf⟩)
    · exact ⟨hold, fun he => hne (by rw [he])⟩
    · cases hf
  · rintro ⟨hold, hne⟩
    exact .inl ⟨hold, fun he => hne (Option.some.inj he).symm⟩

/-- The first of the new tasks is of the kind. -/
theorem holds_created (hw : a.WellFormed) (hmem : ∀ j, who = some j → ⟨j, c⟩ ∈ a.tasks)
    {k : κ} (ht : Turn a who d (k :: new) b) (hnew : ∀ c ∈ new, p c = false)
    (hd : who ≠ none → d.any p = true → p c = true) (h : Holds p b i) :
    Holds p a i ∨ i = a.next := by
  rcases (holds_turn ht).mp h with ⟨hold, -⟩ | ⟨hid, hp⟩ | ⟨c', ⟨n, hn, hid⟩, hp⟩
  · exact .inl hold
  · left
    have hne : who ≠ none := by
      rw [hid]
      exact Option.some_ne_none i
    exact (holds_of_mem hw (hmem i hid)).mpr (hd hne hp)
  · cases n with
    | zero => exact .inr hid
    | succ n =>
      have hin : c' ∈ new := List.mem_of_getElem? hn
      rw [hnew c' hin] at hp
      cases hp

/-! ## Handles -/

/-- A task of the kind that has not been cancelled is the one whose number the heap has. -/
def Handle (p : κ → Bool) (name : σ → Option Nat) (a : Actor σ κ) : Prop :=
  ∀ i, Holds p a i → i ∉ a.cancelled → name a.heap = some i

namespace Handle

variable {name : σ → Option Nat}

/-- At most one task of the kind has not been cancelled. -/
theorem unique (h : Handle p name a) {j : Nat} (hi : Holds p a i) (hi' : i ∉ a.cancelled)
    (hj : Holds p a j) (hj' : j ∉ a.cancelled) : i = j :=
  Option.some.inj ((h i hi hi').symm.trans (h j hj hj'))

theorem keep (h : Handle p name a) (hsub : ∀ i, Holds p b i → Holds p a i)
    (hcan : ∀ i ∈ a.cancelled, i ∈ b.cancelled) (hname : name b.heap = name a.heap) :
    Handle p name b := by
  intro i hi hlive
  rw [hname]
  exact h i (hsub i hi) fun hin => hlive (hcan i hin)

/-- The task that the handle names is cancelled; a new one may take its place. -/
theorem renew (h : Handle p name a) (hsub : ∀ i, Holds p b i → Holds p a i ∨ name b.heap = some i)
    (hcan : ∀ i ∈ a.cancelled, i ∈ b.cancelled)
    (hown : ∀ i, name a.heap = some i → i ∈ b.cancelled) : Handle p name b := by
  intro i hi hlive
  rcases hsub i hi with hold | hnew
  · have hname := h i hold fun hin => hlive (hcan i hin)
    exact absurd (hown i hname) hlive
  · exact hnew

end Handle

/-! ## Flags -/

/-- The flag is up if and only if there is a task of the kind, and there is at most one. -/
structure Flag (p : κ → Bool) (up : σ → Bool) (a : Actor σ κ) : Prop where
  one : ∀ i j, Holds p a i → Holds p a j → i = j
  up : up a.heap = true ↔ ∃ i, Holds p a i

namespace Flag

variable {up : σ → Bool}

theorem keep (h : Flag p up a) (hsame : ∀ i, Holds p b i ↔ Holds p a i)
    (hup : up b.heap = up a.heap) : Flag p up b where
  one i j hi hj := h.one i j ((hsame i).mp hi) ((hsame j).mp hj)
  up := by
    rw [hup, h.up]
    exact exists_congr fun i => (hsame i).symm

/-- A task becomes one of the kind where the flag is down. -/
theorem raise (h : Flag p up a) (hdown : up a.heap = false)
    (hsame : ∀ i, Holds p b i ↔ Holds p a i ∨ i = id) (hup : up b.heap = true) : Flag p up b := by
  have hno (i : Nat) : ¬ Holds p a i := by
    intro hi
    have htrue := h.up.mpr ⟨i, hi⟩
    rw [hdown] at htrue
    cases htrue
  have hid (i : Nat) (hi : Holds p b i) : i = id := ((hsame i).mp hi).resolve_left (hno i)
  refine ⟨?_, ?_⟩
  · intro i j hi hj
    rw [hid i hi, hid j hj]
  · rw [hup]
    exact ⟨fun _ => ⟨id, (hsame id).mpr (.inr rfl)⟩, fun _ => rfl⟩

/-- The task of the kind is one no longer. -/
theorem lower (h : Flag p up a) (hown : Holds p a id)
    (hsame : ∀ i, Holds p b i ↔ Holds p a i ∧ i ≠ id) (hup : up b.heap = false) : Flag p up b := by
  have hno (i : Nat) : ¬ Holds p b i := by
    intro hi
    obtain ⟨hold, hne⟩ := (hsame i).mp hi
    exact hne (h.one i id hold hown)
  refine ⟨?_, ?_⟩
  · intro i _ hi
    exact absurd hi (hno i)
  · rw [hup]
    refine ⟨fun hf => Bool.noConfusion hf, fun hi => ?_⟩
    obtain ⟨i, hi⟩ := hi
    exact absurd hi (hno i)

end Flag

/-! ## Guards -/

/-- What the tasks of the kind rely on, unless they have been cancelled. -/
def Guarded (p : κ → Bool) (P : σ → Prop) (a : Actor σ κ) : Prop :=
  ∀ i, Holds p a i → i ∉ a.cancelled → P a.heap

theorem Guarded.keep {P : σ → Prop} (h : Guarded p P a) (hsub : ∀ i, Holds p b i → Holds p a i)
    (hcan : ∀ i ∈ a.cancelled, i ∈ b.cancelled) (hP : P a.heap → P b.heap) : Guarded p P b := by
  intro i hi hlive
  exact hP (h i (hsub i hi) fun hin => hlive (hcan i hin))

end EasyTierMac.Actor
