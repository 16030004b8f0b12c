import EasyTierMac.Actor

/-!
# The serial queue of an actor

A task that has put a call on the serial queue stands at a point from which it cannot go on
before the call has returned. `waits` says which points these are. `Serial` is the discipline
of the queue: a task that stands at such a point has one call on the queue, any other task has
none, and each call that somebody waits for is of a task that is there.

`Works` are the operations of a turn up to the point where its task stops, `Stops` is a whole
turn. They say what a turn does to the queue: calls are added at its end, and the task whose
turn it is adds one for itself exactly if it stops at a point where it waits.
-/

namespace EasyTierMac.Actor

variable {σ κ : Type*} {waits : κ → Bool} {a b : Actor σ κ} {f : σ → σ} {id : Nat} {c : κ}

@[simp] theorem queue_modify : (a.modify f).queue = a.queue := rfl
@[simp] theorem queue_spawn : (a.spawn c).queue = a.queue := rfl
@[simp] theorem queue_cancel {i : Option Nat} : (a.cancel i).queue = a.queue := rfl
@[simp] theorem queue_suspend : (a.suspend id c).queue = a.queue := rfl
@[simp] theorem queue_call : (a.call id c).queue = a.queue ++ [some id] := rfl
@[simp] theorem queue_post : a.post.queue = a.queue ++ [none] := rfl
@[simp] theorem queue_finish : (a.finish id).queue = a.queue := rfl

/-- One call for each task that waits, and none for any other. -/
structure Serial (waits : κ → Bool) (a : Actor σ κ) : Prop extends WellFormed a where
  once : ∀ t ∈ a.tasks, a.queue.count (some t.id) = (waits t.code).toNat
  owned : ∀ i, some i ∈ a.queue → ∃ t ∈ a.tasks, t.id = i

/-! ## The operations -/

/-- The operations of a turn before its task stops. -/
inductive Works (waits : κ → Bool) (a : Actor σ κ) : Actor σ κ → Prop
  | refl : Works waits a a
  | modify {b : Actor σ κ} {f : σ → σ} : Works waits a b → Works waits a (b.modify f)
  | cancel {b : Actor σ κ} {i : Option Nat} : Works waits a b → Works waits a (b.cancel i)
  | post {b : Actor σ κ} : Works waits a b → Works waits a b.post
  | spawn {b : Actor σ κ} {c : κ} (hc : waits c = false) : Works waits a b → Works waits a (b.spawn c)

/-- A turn of the task `id`. -/
inductive Stops (waits : κ → Bool) (id : Nat) (a : Actor σ κ) : Actor σ κ → Prop
  | suspend {b : Actor σ κ} {c : κ} (h : Works waits a b) (hc : waits c = false) :
      Stops waits id a (b.suspend id c)
  | call {b : Actor σ κ} {c : κ} (h : Works waits a b) (hc : waits c = true) :
      Stops waits id a (b.call id c)
  | finish {b : Actor σ κ} (h : Works waits a b) : Stops waits id a (b.finish id)

/-- No task ends, and nobody waits for the calls that are added. -/
theorem Works.frame (h : Works waits a b) : (∀ t ∈ a.tasks, t ∈ b.tasks) ∧
    ∃ n, b.queue = a.queue ++ List.replicate n none := by
  induction h with
  | refl => exact ⟨fun t ht => ht, 0, by simp⟩
  | modify _ ih | cancel _ ih => exact ih
  | post _ ih =>
    obtain ⟨htasks, n, hq⟩ := ih
    refine ⟨htasks, n + 1, ?_⟩
    rw [queue_post, hq, List.append_assoc, List.replicate_succ']
  | spawn _ _ ih =>
    obtain ⟨htasks, n, hq⟩ := ih
    exact ⟨fun t ht => List.mem_append_left _ (htasks t ht), n, hq⟩

theorem Works.mem_queue_iff (h : Works waits a b) {i : Nat} :
    some i ∈ b.queue ↔ some i ∈ a.queue := by
  obtain ⟨-, n, hq⟩ := h.frame
  rw [hq]
  simp

/-- A turn adds calls at the end of the queue. -/
theorem Stops.queue_prefix (h : Stops waits id a b) : a.queue <+: b.queue := by
  cases h with
  | suspend h =>
    obtain ⟨-, n, hq⟩ := h.frame
    exact ⟨_, hq.symm⟩
  | call h =>
    obtain ⟨-, n, hq⟩ := h.frame
    refine ⟨List.replicate n none ++ [some id], ?_⟩
    rw [queue_call, hq, List.append_assoc]
  | finish h =>
    obtain ⟨-, n, hq⟩ := h.frame
    exact ⟨_, hq.symm⟩

namespace Serial

theorem not_mem_of_not_waits (h : Serial waits a) {t : Task κ} (ht : t ∈ a.tasks)
    (hc : waits t.code = false) : some t.id ∉ a.queue := by
  intro hmem
  have hone := h.once t ht
  have hpos := List.count_pos_iff.mpr hmem
  rw [hc] at hone
  simp only [Bool.toNat_false] at hone
  omega

theorem mem_iff (h : Serial waits a) {t : Task κ} (ht : t ∈ a.tasks) :
    some t.id ∈ a.queue ↔ waits t.code = true := by
  constructor
  · intro hmem
    cases hc : waits t.code with
    | true => rfl
    | false => exact absurd hmem (h.not_mem_of_not_waits ht hc)
  · intro hc
    have hone := h.once t ht
    rw [hc] at hone
    simp only [Bool.toNat_true] at hone
    apply List.count_pos_iff.mp
    omega

/-! ## What keeps the discipline -/

theorem modify (h : Serial waits a) : Serial waits (a.modify f) :=
  ⟨⟨h.unique, h.lt⟩, h.once, h.owned⟩

theorem cancel {i : Option Nat} (h : Serial waits a) : Serial waits (a.cancel i) :=
  ⟨⟨h.unique, h.lt⟩, h.once, h.owned⟩

theorem post (h : Serial waits a) : Serial waits a.post where
  unique := h.unique
  lt := h.lt
  once t ht := by
    rw [queue_post, List.count_append, h.once t ht]
    simp
  owned i hi := by
    rw [queue_post, List.mem_append] at hi
    rcases hi with hi | hi
    · exact h.owned i hi
    · simp at hi

/-- A new task waits for nothing, and its number is on no call. -/
theorem spawn (h : Serial waits a) (hc : waits c = false) : Serial waits (a.spawn c) := by
  have hfresh : some a.next ∉ a.queue := by
    intro hmem
    obtain ⟨t, ht, hid⟩ := h.owned _ hmem
    have hlt := h.lt t ht
    omega
  have hturn : Actor.Turn a none none [c] (a.spawn c) := Actor.Turn.user.spawn
  have hw : (a.spawn c).WellFormed := hturn.wellFormed h.toWellFormed (by simp)
  refine ⟨hw, ?_, ?_⟩
  · intro t ht
    rcases List.mem_append.mp ht with ht | ht
    · exact h.once t ht
    · rw [List.mem_singleton.mp ht, hc]
      exact List.count_eq_zero.mpr hfresh
  · intro i hi
    obtain ⟨t, ht, hid⟩ := h.owned i hi
    exact ⟨t, List.mem_append_left _ ht, hid⟩

theorem works (h : Serial waits a) (hw : Works waits a b) : Serial waits b := by
  induction hw with
  | refl => exact h
  | modify _ ih => exact ih.modify
  | cancel _ ih => exact ih.cancel
  | post _ ih => exact ih.post
  | spawn hc _ ih => exact ih.spawn hc

/-- The task `id` stops at `c`, and what is on the queue for it says so. -/
theorem restand (h : Serial waits a) {k : κ} (hmem : ⟨id, k⟩ ∈ a.tasks) {q : List (Option Nat)}
    (hown : q.count (some id) = (waits c).toNat)
    (hother : ∀ i, i ≠ id → q.count (some i) = a.queue.count (some i)) :
    Serial waits { a.suspend id c with queue := q } := by
  have hturn : Actor.Turn a (some id) (some c) [] (a.suspend id c) :=
    (Actor.Turn.start h.toWellFormed hmem).suspend (h.lt _ hmem)
  have hw : (a.suspend id c).WellFormed := hturn.wellFormed h.toWellFormed fun i hi => by
    cases hi
    exact h.lt _ hmem
  refine ⟨⟨hw.unique, hw.lt⟩, ?_, ?_⟩
  · intro t ht
    rcases hturn.cases ht with ⟨hold, hne⟩ | ⟨hid, hcode⟩ | hnew
    · show q.count (some t.id) = _
      rw [hother t.id fun he => hne (by rw [he]), h.once t hold]
    · show q.count (some t.id) = _
      rw [← hid, hown, Option.some.inj hcode]
    · exact absurd hnew not_created_nil
  · intro i hi
    by_cases hid : i = id
    · refine ⟨⟨id, c⟩, ?_, hid.symm⟩
      exact (hturn.mem _).mpr (.inr (.inl ⟨rfl, rfl⟩))
    · have hpos : 0 < q.count (some i) := List.count_pos_iff.mpr hi
      rw [hother i hid] at hpos
      obtain ⟨t, ht, rfl⟩ := h.owned i (List.count_pos_iff.mp hpos)
      refine ⟨t, hturn.keep ht ?_, rfl⟩
      intro he
      exact hid (Option.some.inj he).symm

theorem finish (h : Serial waits a) (hq : some id ∉ a.queue) : Serial waits (a.finish id) := by
  refine ⟨⟨?_, ?_⟩, ?_, ?_⟩
  · intro t ht u hu hid
    exact h.unique t (List.mem_of_mem_filter ht) u (List.mem_of_mem_filter hu) hid
  · intro t ht
    exact h.lt t (List.mem_of_mem_filter ht)
  · intro t ht
    exact h.once t (List.mem_of_mem_filter ht)
  · intro i hi
    obtain ⟨t, ht, rfl⟩ := h.owned i hi
    refine ⟨t, List.mem_filter.mpr ⟨ht, ?_⟩, rfl⟩
    have hne : t.id ≠ id := fun he => hq (he ▸ hi)
    simpa using hne

/-- **A turn keeps the discipline.** -/
theorem stops (h : Serial waits a) {k : κ} (hmem : ⟨id, k⟩ ∈ a.tasks) (hk : waits k = false)
    (ht : Stops waits id a b) : Serial waits b := by
  have hq : some id ∉ a.queue := h.not_mem_of_not_waits hmem hk
  cases ht with
  | suspend hw hc =>
    have hb := h.works hw
    have hzero : some id ∉ _ := fun hi => hq (hw.mem_queue_iff.mp hi)
    refine hb.restand (hw.frame.1 _ hmem) ?_ fun i _ => rfl
    rw [hc]
    exact List.count_eq_zero.mpr hzero
  | @call b c hw hc =>
    have hb := h.works hw
    have hzero : some id ∉ b.queue := fun hi => hq (hw.mem_queue_iff.mp hi)
    refine hb.restand (hw.frame.1 _ hmem) ?_ fun i hi => ?_
    · rw [hc, List.count_append, List.count_eq_zero.mpr hzero]
      simp
    · rw [List.count_append]
      have hne : id ≠ i := fun he => hi he.symm
      simp [hne]
  | finish hw =>
    refine (h.works hw).finish ?_
    intro hi
    exact hq (hw.mem_queue_iff.mp hi)

/-- The first call on the queue returns. -/
theorem returned (h : Serial waits a) {k : κ} {queue : List (Option Nat)} (hmem : ⟨id, k⟩ ∈ a.tasks)
    (hq : a.queue = some id :: queue) (hc : waits c = false) :
    Serial waits ({ a with queue := queue }.suspend id c) := by
  have hone : a.queue.count (some id) = (waits k).toNat := h.once _ hmem
  have hle : (waits k).toNat ≤ 1 := Bool.toNat_le _
  rw [hq, List.count_cons_self] at hone
  refine h.restand hmem ?_ fun i hi => ?_
  · rw [hc]
    simp only [Bool.toNat_false]
    omega
  · have hne : id ≠ i := fun he => hi he.symm
    rw [hq, List.count_cons_of_ne]
    simpa using hne

/-- The first call on the queue returns, and nobody waits for it. -/
theorem dropped (h : Serial waits a) {queue : List (Option Nat)} (hq : a.queue = none :: queue) :
    Serial waits { a with queue := queue } := by
  refine ⟨⟨h.unique, h.lt⟩, ?_, ?_⟩
  · intro t ht
    have hone := h.once t ht
    rw [hq, List.count_cons_of_ne (by simp)] at hone
    exact hone
  · intro i hi
    refine h.owned i ?_
    rw [hq]
    exact List.mem_cons_of_mem _ hi

end Serial

end EasyTierMac.Actor
