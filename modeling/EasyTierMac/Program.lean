/-!
# Programs of atomic operations

A `Program` is the code of a call that works on shared state through atomic operations:
it performs an operation, goes on with its result, and returns a value in the end. A
`Machine` says what an operation does to the state. How an operation goes is the
environment's choice, its `Outcome`; the program sees only the result. `Runs` is one
complete run, with the outcomes of the operations it performed.

`Runs.invariant` is the rule for a part of a program that keeps a property of the state:
all its operations do (`All`).
-/

namespace EasyTierMac

/-- Perform an operation and go on with its result, or return. -/
inductive Program (Op : Type) (Res : Op → Type) (α : Type)
  | ret (a : α)
  | op (o : Op) (k : Res o → Program Op Res α)

namespace Program

variable {Op : Type} {Res : Op → Type} {α β σ : Type}

/-- One after the other. -/
def andThen : Program Op Res α → (α → Program Op Res β) → Program Op Res β
  | .ret a, f => f a
  | .op o k, f => .op o fun r => andThen (k r) f

instance : Monad (Program Op Res) where
  pure := .ret
  bind := andThen

/-- A single operation. -/
def perform (o : Op) : Program Op Res (Res o) := .op o .ret

@[simp] theorem pure_eq (a : α) : (pure a : Program Op Res α) = .ret a := rfl

@[simp] theorem ret_bind (a : α) (f : α → Program Op Res β) : (.ret a : Program Op Res α) >>= f = f a :=
  rfl

@[simp] theorem op_bind (o : Op) (k : Res o → Program Op Res α) (f : α → Program Op Res β) :
    .op o k >>= f = .op o fun r => k r >>= f := rfl

/-! ## Machines -/

/-- What the operations do to a state. -/
structure Machine (σ : Type) (Op : Type) (Res : Op → Type) where
  /-- The ways in which an operation can go. -/
  Outcome : Op → Type
  /-- The result and the next state; `none` where the operation cannot go this way. -/
  act : σ → (o : Op) → Outcome o → Option (Res o × σ)

variable {M : Machine σ Op Res} {s s' : σ} {a : α} {b : β}

/-- The operations that were performed, and how each of them went. -/
abbrev Machine.Trace (M : Machine σ Op Res) : Type := List (Σ o, M.Outcome o)

variable {tr : M.Trace}

/-- A complete run. -/
inductive Runs (M : Machine σ Op Res) {α : Type} : Program Op Res α → σ → M.Trace → α → σ → Prop
  | ret {a : α} {s : σ} : Runs M (.ret a) s [] a s
  | op {o : Op} {k : Res o → Program Op Res α} {x : M.Outcome o} {r : Res o} {s s₁ s' : σ}
      {tr : M.Trace} {a : α} (hact : M.act s o x = some (r, s₁)) (hrun : Runs M (k r) s₁ tr a s') :
      Runs M (.op o k) s (⟨o, x⟩ :: tr) a s'

theorem runs_ret {a' : α} : Runs M (.ret a') s tr a s' ↔ tr = [] ∧ a = a' ∧ s' = s := by
  constructor
  · intro h
    cases h
    exact ⟨rfl, rfl, rfl⟩
  · rintro ⟨rfl, rfl, rfl⟩
    exact .ret

theorem runs_op {o : Op} {k : Res o → Program Op Res α} :
    Runs M (.op o k) s tr a s' ↔
      ∃ x r s₁ tr₁, tr = ⟨o, x⟩ :: tr₁ ∧ M.act s o x = some (r, s₁) ∧ Runs M (k r) s₁ tr₁ a s' := by
  constructor
  · intro h
    cases h with
    | op hact hrun => exact ⟨_, _, _, _, rfl, hact, hrun⟩
  · rintro ⟨x, r, s₁, tr₁, rfl, hact, hrun⟩
    exact .op hact hrun

/-- A run of two programs, one after the other, is a run of the first and a run of the
second. -/
theorem runs_bind {p : Program Op Res α} {f : α → Program Op Res β} :
    Runs M (p >>= f) s tr b s' ↔
      ∃ a s₁ tr₁ tr₂, tr = tr₁ ++ tr₂ ∧ Runs M p s tr₁ a s₁ ∧ Runs M (f a) s₁ tr₂ b s' := by
  induction p generalizing s tr with
  | ret a =>
    rw [ret_bind]
    constructor
    · intro h
      exact ⟨a, s, [], tr, rfl, .ret, h⟩
    · rintro ⟨a', s₁, tr₁, tr₂, rfl, h, h'⟩
      cases h
      exact h'
  | op o k ih =>
    rw [op_bind]
    constructor
    · intro h
      cases h with
      | op hact hrun =>
        obtain ⟨a, s₁, tr₁, tr₂, rfl, h₁, h₂⟩ := (ih _).mp hrun
        exact ⟨a, s₁, _, tr₂, rfl, .op hact h₁, h₂⟩
    · rintro ⟨a, s₁, tr₁, tr₂, rfl, h₁, h₂⟩
      cases h₁ with
      | op hact hrun => exact .op hact ((ih _).mpr ⟨a, s₁, _, tr₂, rfl, hrun, h₂⟩)

/-! ## Parts of a program that keep a property of the state -/

/-- Every operation of the program meets `P`. -/
def All (P : Op → Prop) : Program Op Res α → Prop
  | .ret _ => True
  | .op o k => P o ∧ ∀ r, All P (k r)

theorem All.bind {P : Op → Prop} {p : Program Op Res α} {f : α → Program Op Res β} (hp : All P p)
    (hf : ∀ a, All P (f a)) : All P (p >>= f) := by
  induction p with
  | ret a => exact hf a
  | op o k ih => exact ⟨hp.1, fun r => ih r (hp.2 r)⟩

theorem All.mono {P Q : Op → Prop} {p : Program Op Res α} (h : All P p) (hPQ : ∀ o, P o → Q o) :
    All Q p := by
  induction p with
  | ret a => trivial
  | op o k ih => exact ⟨hPQ o h.1, fun r => ih r (h.2 r)⟩

/-- A run performs operations of its program only. -/
theorem Runs.all_trace {P : Op → Prop} {p : Program Op Res α} (h : Runs M p s tr a s')
    (hp : All P p) : ∀ e ∈ tr, P e.1 := by
  induction h with
  | ret => exact fun e he => nomatch he
  | op hstep hrun ih =>
    intro e he
    rcases List.mem_cons.mp he with rfl | he
    · exact hp.1
    · exact ih (hp.2 _) e he

/-- **Invariant rule.** A property that the operations of a program keep holds after it. -/
theorem Runs.invariant {I : σ → Prop} {P : Op → Prop} {p : Program Op Res α}
    (h : Runs M p s tr a s') (hp : All P p)
    (hact : ∀ {s o x r s'}, P o → M.act s o x = some (r, s') → I s → I s') (hs : I s) : I s' := by
  induction h with
  | ret => exact hs
  | op hstep hrun ih => exact ih (hp.2 _) (hact hp.1 hstep hs)

end Program

end EasyTierMac
