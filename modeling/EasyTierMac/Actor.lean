import Mathlib.Data.List.Basic

/-!
# Re-entrant actors

The tasks of an actor work on one heap. A task runs alone, but only from one suspension
point to the next: it is suspended when it has been created, while a call that it put on a
serial queue has not returned, and while it sleeps. Between two turns of a task any other
task of the actor can run, so a guard that a task has checked says nothing after the next
suspension.

An `Actor` holds the heap, each task's code from the point at which it stands, and the
queue. Code is a type parameter: whoever instantiates it says what a turn does, with the
operations `modify`, `spawn`, `cancel`, `suspend`, `call`, `post` and `finish`. `Turn` sums
up what the operations of a turn make of the tasks: one task moved on or ended, new ones
created, and no other one touched.
-/

namespace EasyTierMac

/-- A task: its number, in the order of creation, and its code from the point at which it
stands. -/
structure Task (κ : Type*) where
  id : Nat
  code : κ
  deriving DecidableEq, Repr

structure Actor (σ κ : Type*) where
  heap : σ
  tasks : List (Task κ) := []
  /-- The number of the next task. -/
  next : Nat := 0
  /-- Tasks that have been cancelled. Cancelling sets a flag, it does not stop the task. -/
  cancelled : List Nat := []
  /-- The serial queue: the task that waits for the call, `none` for a call nobody waits for. -/
  queue : List (Option Nat) := []

namespace Actor

variable {σ κ : Type*}

/-! ## Operations -/

def modify (f : σ → σ) (a : Actor σ κ) : Actor σ κ := { a with heap := f a.heap }

/-- Create a task. It runs later. -/
def spawn (c : κ) (a : Actor σ κ) : Actor σ κ :=
  { a with tasks := a.tasks ++ [⟨a.next, c⟩], next := a.next + 1 }

def cancel (id : Option Nat) (a : Actor σ κ) : Actor σ κ :=
  { a with cancelled := id.toList ++ a.cancelled }

def isCancelled (a : Actor σ κ) (id : Nat) : Bool := decide (id ∈ a.cancelled)

/-- The code of a task, from the point at which it stands. -/
def code? (a : Actor σ κ) (id : Nat) : Option κ :=
  (a.tasks.find? fun t => t.id = id).map Task.code

/-- The task stops at `c`. -/
def suspend (id : Nat) (c : κ) (a : Actor σ κ) : Actor σ κ :=
  { a with tasks := a.tasks.map fun t => if t.id = id then ⟨id, c⟩ else t }

/-- The task puts a call on the queue and stops at `c` until it returns. -/
def call (id : Nat) (c : κ) (a : Actor σ κ) : Actor σ κ :=
  { a.suspend id c with queue := a.queue ++ [some id] }

/-- Put a call on the queue that nobody waits for. -/
def post (a : Actor σ κ) : Actor σ κ := { a with queue := a.queue ++ [none] }

def finish (id : Nat) (a : Actor σ κ) : Actor σ κ :=
  { a with tasks := a.tasks.filter fun t => t.id ≠ id }

variable {a a' : Actor σ κ} {f : σ → σ} {id : Nat} {c : κ} {t u : Task κ}

@[simp] theorem heap_modify : (a.modify f).heap = f a.heap := rfl
@[simp] theorem tasks_modify : (a.modify f).tasks = a.tasks := rfl
@[simp] theorem next_modify : (a.modify f).next = a.next := rfl
@[simp] theorem cancelled_modify : (a.modify f).cancelled = a.cancelled := rfl

@[simp] theorem heap_spawn : (a.spawn c).heap = a.heap := rfl
@[simp] theorem next_spawn : (a.spawn c).next = a.next + 1 := rfl
@[simp] theorem cancelled_spawn : (a.spawn c).cancelled = a.cancelled := rfl

@[simp] theorem heap_cancel {i : Option Nat} : (a.cancel i).heap = a.heap := rfl
@[simp] theorem tasks_cancel {i : Option Nat} : (a.cancel i).tasks = a.tasks := rfl
@[simp] theorem next_cancel {i : Option Nat} : (a.cancel i).next = a.next := rfl
@[simp] theorem cancelled_cancel {i : Option Nat} :
    (a.cancel i).cancelled = i.toList ++ a.cancelled := rfl

@[simp] theorem heap_suspend : (a.suspend id c).heap = a.heap := rfl
@[simp] theorem next_suspend : (a.suspend id c).next = a.next := rfl
@[simp] theorem cancelled_suspend : (a.suspend id c).cancelled = a.cancelled := rfl

@[simp] theorem heap_call : (a.call id c).heap = a.heap := rfl
@[simp] theorem tasks_call : (a.call id c).tasks = (a.suspend id c).tasks := rfl
@[simp] theorem next_call : (a.call id c).next = a.next := rfl
@[simp] theorem cancelled_call : (a.call id c).cancelled = a.cancelled := rfl

@[simp] theorem heap_post : a.post.heap = a.heap := rfl
@[simp] theorem tasks_post : a.post.tasks = a.tasks := rfl
@[simp] theorem next_post : a.post.next = a.next := rfl
@[simp] theorem cancelled_post : a.post.cancelled = a.cancelled := rfl

@[simp] theorem heap_finish : (a.finish id).heap = a.heap := rfl
@[simp] theorem next_finish : (a.finish id).next = a.next := rfl
@[simp] theorem cancelled_finish : (a.finish id).cancelled = a.cancelled := rfl

@[simp] theorem isCancelled_eq_true : a.isCancelled id = true ↔ id ∈ a.cancelled := by
  simp [isCancelled]

theorem mem_of_code? (h : a.code? id = some c) : ⟨id, c⟩ ∈ a.tasks := by
  obtain ⟨t, hfind, rfl⟩ := Option.map_eq_some_iff.mp h
  have hid : t.id = id := by simpa using List.find?_some hfind
  have hmem := List.mem_of_find?_eq_some hfind
  rw [← hid]
  exact hmem

/-! ## The tasks of an actor -/

/-- No two tasks have one number, and the next number is free. -/
structure WellFormed (a : Actor σ κ) : Prop where
  unique : ∀ t ∈ a.tasks, ∀ u ∈ a.tasks, t.id = u.id → t = u
  lt : ∀ t ∈ a.tasks, t.id < a.next

theorem code?_of_mem (hw : a.WellFormed) (h : ⟨id, c⟩ ∈ a.tasks) : a.code? id = some c := by
  unfold code?
  cases hfind : a.tasks.find? fun t => t.id = id with
  | none =>
    rw [List.find?_eq_none] at hfind
    exact absurd (decide_eq_true rfl) (hfind _ h)
  | some t =>
    have hid : t.id = id := by simpa using List.find?_some hfind
    rw [hw.unique t (List.mem_of_find?_eq_some hfind) ⟨id, c⟩ h hid]
    rfl

/-- The `i`-th of the tasks created with the codes `new` since the next number was `n`. -/
def Created (n : Nat) (new : List κ) (t : Task κ) : Prop :=
  ∃ i, new[i]? = some t.code ∧ t.id = n + i

/-- What a turn makes of the tasks: `who`, whose turn it is, stands at `c` (`none`: has
ended), and tasks with the codes `new` have been created. No task's turn: `who = none`. -/
structure Turn (a : Actor σ κ) (who : Option Nat) (c : Option κ) (new : List κ)
    (a' : Actor σ κ) : Prop where
  next : a'.next = a.next + new.length
  mem : ∀ t, t ∈ a'.tasks ↔
    t ∈ a.tasks ∧ who ≠ some t.id ∨ who = some t.id ∧ c = some t.code ∨ Created a.next new t

theorem Created.le {n : Nat} {new : List κ} (h : Created n new t) : n ≤ t.id := by
  obtain ⟨i, -, hid⟩ := h
  omega

theorem Created.lt {n : Nat} {new : List κ} (h : Created n new t) : t.id < n + new.length := by
  obtain ⟨i, hi, hid⟩ := h
  obtain ⟨hlt, -⟩ := List.getElem?_eq_some_iff.mp hi
  omega

theorem Created.mem {n : Nat} {new : List κ} (h : Created n new t) : t.code ∈ new := by
  obtain ⟨i, hi, -⟩ := h
  exact List.mem_of_getElem? hi

theorem not_created_nil {n : Nat} : ¬ Created n ([] : List κ) t := by
  rintro ⟨i, hi, -⟩
  simp at hi

theorem created_concat {n : Nat} {new : List κ} :
    Created n (new ++ [c]) t ↔ Created n new t ∨ t = ⟨n + new.length, c⟩ := by
  constructor
  · rintro ⟨i, hi, hid⟩
    rcases Nat.lt_or_ge i new.length with hlt | hge
    · rw [List.getElem?_append_left hlt] at hi
      exact .inl ⟨i, hi, hid⟩
    · rw [List.getElem?_append_right hge, List.getElem?_singleton] at hi
      split at hi
      · next h0 =>
        right
        have hlen : i = new.length := by omega
        obtain ⟨tid, tcode⟩ := t
        simp only [Option.some.injEq] at hi
        simp only at hid
        simp [← hi, hid, hlen]
      · cases hi
  · rintro (⟨i, hi, hid⟩ | rfl)
    · obtain ⟨hlt, -⟩ := List.getElem?_eq_some_iff.mp hi
      exact ⟨i, by rw [List.getElem?_append_left hlt]; exact hi, hid⟩
    · exact ⟨new.length, by simp, rfl⟩

namespace Turn

variable {who : Option Nat} {d : Option κ} {new : List κ}

/-! ### Building a turn -/

/-- A turn begins with the task where it stands. -/
theorem start (hw : a.WellFormed) (h : ⟨id, c⟩ ∈ a.tasks) : Turn a (some id) (some c) [] a where
  next := rfl
  mem t := by
    constructor
    · intro ht
      by_cases hid : t.id = id
      · have heq : t = ⟨id, c⟩ := hw.unique t ht _ h hid
        exact .inr (.inl (by simp [heq]))
      · exact .inl ⟨ht, by simpa using Ne.symm hid⟩
    · rintro (⟨ht, -⟩ | ⟨hid, hc⟩ | hnew)
      · exact ht
      · obtain ⟨tid, tcode⟩ := t
        simp only [Option.some.injEq] at hid hc
        exact hid ▸ hc ▸ h
      · exact absurd hnew not_created_nil

/-- No task has the turn. -/
theorem user : Turn a none none [] a where
  next := rfl
  mem t := by
    have hnew : ¬ Created a.next ([] : List κ) t := not_created_nil
    simp [hnew]

/-- Operations that leave the tasks alone. -/
theorem of_eq {b : Actor σ κ} (h : Turn a who d new a') (ht : b.tasks = a'.tasks)
    (hn : b.next = a'.next) : Turn a who d new b where
  next := hn.trans h.next
  mem t := by rw [ht]; exact h.mem t

theorem modify (h : Turn a who d new a') : Turn a who d new (a'.modify f) := h.of_eq rfl rfl

theorem cancel {i : Option Nat} (h : Turn a who d new a') : Turn a who d new (a'.cancel i) :=
  h.of_eq rfl rfl

theorem post (h : Turn a who d new a') : Turn a who d new a'.post := h.of_eq rfl rfl

theorem spawn (h : Turn a who d new a') : Turn a who d (new ++ [c]) (a'.spawn c) where
  next := by simp [h.next, Nat.add_assoc]
  mem t := by
    simp only [Actor.spawn, List.mem_append, List.mem_singleton, h.mem t, created_concat, h.next]
    tauto

/-- The task whose turn it is stops. -/
theorem suspend (h : Turn a (some id) (some c) new a') (hid : id < a.next) {k : κ} :
    Turn a (some id) (some k) new (a'.suspend id k) where
  next := h.next
  mem t := by
    have hown : (⟨id, c⟩ : Task κ) ∈ a'.tasks := (h.mem _).mpr (.inr (.inl ⟨rfl, rfl⟩))
    simp only [Actor.suspend, List.mem_map]
    constructor
    · rintro ⟨u, hu, rfl⟩
      split
      · exact .inr (.inl ⟨rfl, rfl⟩)
      · next hne =>
        rcases (h.mem u).mp hu with hold | ⟨hw, -⟩ | hnew
        · exact .inl hold
        · exact absurd (Option.some.inj hw).symm hne
        · exact .inr (.inr hnew)
    · rintro (⟨ht, hne⟩ | ⟨hw, hc⟩ | hnew)
      · have hne' : t.id ≠ id := fun he => hne (by rw [he])
        exact ⟨t, (h.mem t).mpr (.inl ⟨ht, hne⟩), if_neg hne'⟩
      · obtain ⟨tid, tcode⟩ := t
        simp only [Option.some.injEq] at hw hc
        exact ⟨⟨id, c⟩, hown, by simp [hw, hc]⟩
      · have hne' : t.id ≠ id := by
          have := hnew.le
          omega
        exact ⟨t, (h.mem t).mpr (.inr (.inr hnew)), if_neg hne'⟩

theorem call (h : Turn a (some id) (some c) new a') (hid : id < a.next) {k : κ} :
    Turn a (some id) (some k) new (a'.call id k) := (h.suspend hid).of_eq rfl rfl

/-- The task whose turn it is ends. -/
theorem finish (h : Turn a (some id) d new a') (hid : id < a.next) :
    Turn a (some id) none new (a'.finish id) where
  next := h.next
  mem t := by
    simp only [Actor.finish, List.mem_filter, decide_eq_true_eq]
    constructor
    · rintro ⟨ht, hne⟩
      rcases (h.mem t).mp ht with hold | ⟨hw, -⟩ | hnew
      · exact .inl hold
      · exact absurd (Option.some.inj hw).symm hne
      · exact .inr (.inr hnew)
    · rintro (⟨ht, hne⟩ | ⟨-, hc⟩ | hnew)
      · exact ⟨(h.mem t).mpr (.inl ⟨ht, hne⟩), fun he => hne (by rw [he])⟩
      · cases hc
      · refine ⟨(h.mem t).mpr (.inr (.inr hnew)), ?_⟩
        have := hnew.le
        omega

/-! ### What a turn leaves alone -/

/-- Turns keep the numbering. -/
theorem wellFormed (h : Turn a who d new a') (hw : a.WellFormed)
    (hwho : ∀ i, who = some i → i < a.next) : a'.WellFormed where
  unique t ht u hu hid := by
    rcases (h.mem t).mp ht with ⟨hold, hne⟩ | ⟨hown, hc⟩ | hnew
    -- an old task and the one whose turn it was differ from a new one by their numbers
    · rcases (h.mem u).mp hu with ⟨hold', -⟩ | ⟨hown', -⟩ | hnew'
      · exact hw.unique t hold u hold' hid
      · exact absurd (hid ▸ hown') hne
      · have := hw.lt t hold
        have := hnew'.le
        omega
    · rcases (h.mem u).mp hu with ⟨-, hne'⟩ | ⟨-, hc'⟩ | hnew'
      · exact absurd (hid ▸ hown) hne'
      · obtain ⟨tid, tcode⟩ := t
        obtain ⟨uid, ucode⟩ := u
        have hcode : tcode = ucode := Option.some.inj (hc.symm.trans hc')
        have hid' : tid = uid := hid
        rw [hid', hcode]
      · have := hwho _ hown
        have := hnew'.le
        omega
    · rcases (h.mem u).mp hu with ⟨hold', -⟩ | ⟨hown', -⟩ | hnew'
      · have := hw.lt u hold'
        have := hnew.le
        omega
      · have := hwho _ hown'
        have := hnew.le
        omega
      · obtain ⟨i, hi, hti⟩ := hnew
        obtain ⟨j, hj, huj⟩ := hnew'
        have hij : i = j := by omega
        obtain ⟨tid, tcode⟩ := t
        obtain ⟨uid, ucode⟩ := u
        have hcode : tcode = ucode := Option.some.inj (hi.symm.trans (hij ▸ hj))
        have hid' : tid = uid := hid
        rw [hid', hcode]
  lt t ht := by
    rw [h.next]
    rcases (h.mem t).mp ht with ⟨hold, -⟩ | ⟨hown, -⟩ | hnew
    · have := hw.lt t hold
      omega
    · have := hwho _ hown
      omega
    · exact hnew.lt

/-- A task that the turn is not of is untouched. -/
theorem keep (h : Turn a who d new a') (ht : t ∈ a.tasks) (hne : who ≠ some t.id) : t ∈ a'.tasks :=
  (h.mem t).mpr (.inl ⟨ht, hne⟩)

/-- A task after the turn is an old one, the one whose turn it was, or a new one. -/
theorem cases (h : Turn a who d new a') (ht : t ∈ a'.tasks) :
    t ∈ a.tasks ∧ who ≠ some t.id ∨ who = some t.id ∧ d = some t.code ∨ Created a.next new t :=
  (h.mem t).mp ht

end Turn

end Actor

end EasyTierMac
