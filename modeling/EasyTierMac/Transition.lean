import Mathlib.Data.Option.Basic

/-!
# Transition systems with step conditions

A `System` is an initial state and a labelled step relation. An executable step
function gives one (`System.ofStep`), and then concrete runs evaluate
(`runBy`), so a run that evaluates is a reachable state.

Reachability carries a *step condition* `P : σ → α → Prop`. `ReachableBy P s`
says some run reaches `s` and every one of its steps was taken in a state, and
with an action, that meet `P`. With `P` trivial this is plain reachability
(`Reachable`). A property that only holds while some race does not happen is
stated as: every state reached by steps that avoid the race has it.

Invariants are proved once per step and lifted by `ReachableBy.invariant`
(`PathBy.invariant` along a segment of a run). `Refinement` connects two
systems by a function on states and a relation between their actions;
`Refinement.reachableBy` moves reachable states, and with them invariants,
from the detailed system to the abstract one. `System.recording` adds a history
variable: what a run has seen so far, written by every step and read by none.
-/

namespace EasyTierMac.Transition

/-- An initial state and a labelled step relation. -/
structure System (σ : Type*) (α : Type*) where
  init : σ
  step : σ → α → σ → Prop

namespace System

variable {σ α : Type*} {M : System σ α} {P Q : σ → α → Prop}

/-- Reached by a run whose steps all meet `P`. -/
inductive ReachableBy (M : System σ α) (P : σ → α → Prop) : σ → Prop
  | init : ReachableBy M P M.init
  | step {s s' : σ} {a : α} : ReachableBy M P s → P s a → M.step s a s' → ReachableBy M P s'

/-- Reached by some run. -/
abbrev Reachable (M : System σ α) : σ → Prop := M.ReachableBy fun _ _ => True

/-- `s'` is reached from `s` by steps that all meet `P`. -/
inductive PathBy (M : System σ α) (P : σ → α → Prop) (s : σ) : σ → Prop
  | refl : PathBy M P s s
  | tail {s₁ s₂ : σ} {a : α} : PathBy M P s s₁ → P s₁ a → M.step s₁ a s₂ → PathBy M P s s₂

/-! ## Rules -/

/-- **Invariant rule.** A property of the initial state that every admitted step
out of a reachable state keeps holds in every reachable state. -/
theorem ReachableBy.invariant {I : σ → Prop} (hinit : I M.init)
    (hstep : ∀ {s a s'}, M.ReachableBy P s → I s → P s a → M.step s a s' → I s')
    {s : σ} (h : M.ReachableBy P s) : I s := by
  induction h with
  | init => exact hinit
  | step hr hp hs ih => exact hstep hr ih hp hs

theorem ReachableBy.mono (hPQ : ∀ s a, P s a → Q s a) {s : σ} (h : M.ReachableBy P s) :
    M.ReachableBy Q s := by
  induction h with
  | init => exact .init
  | step _ hp hs ih => exact .step ih (hPQ _ _ hp) hs

theorem ReachableBy.reachable {s : σ} (h : M.ReachableBy P s) : M.Reachable s :=
  h.mono fun _ _ _ => trivial

theorem ReachableBy.path {s s' : σ} (h : M.ReachableBy P s) (hp : M.PathBy P s s') :
    M.ReachableBy P s' := by
  induction hp with
  | refl => exact h
  | tail _ hp hs ih => exact .step ih hp hs

theorem PathBy.mono (hPQ : ∀ s a, P s a → Q s a) {s s' : σ} (h : M.PathBy P s s') :
    M.PathBy Q s s' := by
  induction h with
  | refl => exact .refl
  | tail _ hp hs ih => exact .tail ih (hPQ _ _ hp) hs

theorem PathBy.trans {s s₁ s₂ : σ} (h : M.PathBy P s s₁) (h' : M.PathBy P s₁ s₂) :
    M.PathBy P s s₂ := by
  induction h' with
  | refl => exact h
  | tail _ hp hs ih => exact .tail ih hp hs

/-- The invariant rule along a segment of a run. -/
theorem PathBy.invariant {I : σ → Prop} {s s' : σ} (hr : M.ReachableBy P s) (hs : I s)
    (hstep : ∀ {s a s'}, M.ReachableBy P s → I s → P s a → M.step s a s' → I s')
    (h : M.PathBy P s s') : I s' := by
  induction h with
  | refl => exact hs
  | tail hpath hp hst ih => exact hstep (hr.path hpath) ih hp hst

/-! ## Executable systems -/

/-- The system of a guarded step function: `none` where the action is disabled. -/
def ofStep (init : σ) (f : σ → α → Option σ) : System σ α where
  init := init
  step s a s' := f s a = some s'

variable {s₀ : σ} {f : σ → α → Option σ}

/-- Perform a list of actions in order; `none` if one is disabled or does not meet `P`. -/
def runBy (f : σ → α → Option σ) (P : σ → α → Prop) [∀ s a, Decidable (P s a)] :
    σ → List α → Option σ
  | s, [] => some s
  | s, a :: as => if P s a then (f s a).bind (runBy f P · as) else none

theorem runBy_reachableBy [∀ s a, Decidable (P s a)] :
    ∀ {l : List α} {s s' : σ}, (ofStep s₀ f).ReachableBy P s → runBy f P s l = some s' →
      (ofStep s₀ f).ReachableBy P s'
  | [], s, s', hs, h => by
    simp only [runBy, Option.some.injEq] at h
    exact h ▸ hs
  | a :: as, s, s', hs, h => by
    unfold runBy at h
    split at h
    · next hp =>
      obtain ⟨s₁, hst, h⟩ := Option.bind_eq_some_iff.mp h
      exact runBy_reachableBy (.step hs hp hst) h
    · cases h

theorem runBy_pathBy [∀ s a, Decidable (P s a)] {s : σ} :
    ∀ {l : List α} {s₁ s₂ : σ}, (ofStep s₀ f).PathBy P s s₁ → runBy f P s₁ l = some s₂ →
      (ofStep s₀ f).PathBy P s s₂
  | [], s₁, s₂, hs, h => by
    simp only [runBy, Option.some.injEq] at h
    exact h ▸ hs
  | a :: as, s₁, s₂, hs, h => by
    unfold runBy at h
    split at h
    · next hp =>
      obtain ⟨s', hst, h⟩ := Option.bind_eq_some_iff.mp h
      exact runBy_pathBy (.tail hs hp hst) h
    · cases h

/-- A run from the initial state that evaluates to a state passing the test `p`
reaches such a state. -/
theorem exists_reachableBy_of_runBy [∀ s a, Decidable (P s a)] {l : List α} {p : σ → Bool}
    (h : (runBy f P s₀ l).any p = true) : ∃ s, (ofStep s₀ f).ReachableBy P s ∧ p s = true := by
  cases hr : runBy f P s₀ l with
  | none => simp [hr] at h
  | some s => exact ⟨s, runBy_reachableBy .init hr, by simpa [hr] using h⟩

/-- A step and a run after it that evaluate to a state passing the test `p` give the
path to such a state. -/
theorem exists_pathBy_of_runBy [∀ s a, Decidable (P s a)] {s : σ} {a : α} {l : List α}
    {p : σ → Bool} (h : ((f s a).bind fun s₁ => runBy f P s₁ l).any p = true) :
    ∃ s₁ s₂, f s a = some s₁ ∧ (ofStep s₀ f).PathBy P s₁ s₂ ∧ p s₂ = true := by
  cases hs : f s a with
  | none => simp [hs] at h
  | some s₁ =>
    cases hr : runBy f P s₁ l with
    | none => simp [hs, hr] at h
    | some s₂ => exact ⟨s₁, s₂, rfl, runBy_pathBy .refl hr, by simpa [hs, hr] using h⟩

/-- A run and its continuation that evaluate to states passing the test `p` give a
reachable state and a path out of it. -/
theorem exists_reachableBy_pathBy_of_runBy {Q : σ → α → Prop} [∀ s a, Decidable (P s a)]
    [∀ s a, Decidable (Q s a)] {l l' : List α} {p : σ → σ → Bool}
    (h : ((runBy f P s₀ l).bind fun s => (runBy f Q s l').map (Prod.mk s)).any
      (fun q => p q.1 q.2) = true) :
    ∃ s s', (ofStep s₀ f).ReachableBy P s ∧ (ofStep s₀ f).PathBy Q s s' ∧ p s s' = true := by
  cases hr : runBy f P s₀ l with
  | none => simp [hr] at h
  | some s =>
    cases hr' : runBy f Q s l' with
    | none => simp [hr, hr'] at h
    | some s' =>
      exact ⟨s, s', runBy_reachableBy .init hr, runBy_pathBy .refl hr', by simpa [hr, hr'] using h⟩

/-! ## History variables -/

variable {η : Type*} {h₀ : η} {note : σ → α → η → η}

/-- `M` with a record of the run: `note` says what a step adds to it. -/
def recording (M : System σ α) (h₀ : η) (note : σ → α → η → η) : System (σ × η) α where
  init := (M.init, h₀)
  step p a p' := M.step p.1 a p'.1 ∧ p'.2 = note p.1 a p.2

/-- The record is not read: without it, a run is a run of the system. -/
theorem ReachableBy.of_recording {p : σ × η}
    (h : (M.recording h₀ note).ReachableBy (fun q a => P q.1 a) p) : M.ReachableBy P p.1 := by
  induction h with
  | init => exact .init
  | step _ hp hs ih => exact .step ih hp hs.1

/-- Every run can be recorded. -/
theorem ReachableBy.recording {s : σ} (h : M.ReachableBy P s) (h₀ : η) (note : σ → α → η → η) :
    ∃ r, (M.recording h₀ note).ReachableBy (fun q a => P q.1 a) (s, r) := by
  induction h with
  | init => exact ⟨h₀, .init⟩
  | @step s s' a _ hp hs ih =>
    obtain ⟨r, hr⟩ := ih
    have hst : (M.recording h₀ note).step (s, r) a (s', note s a r) := ⟨hs, rfl⟩
    exact ⟨note s a r, .step hr hp hst⟩

/-- The step function of a recorded system. -/
def recordStep (f : σ → α → Option σ) (note : σ → α → η → η) (p : σ × η) (a : α) : Option (σ × η) :=
  (f p.1 a).map fun s => (s, note p.1 a p.2)

theorem recording_ofStep : (ofStep s₀ f).recording h₀ note = ofStep (s₀, h₀) (recordStep f note) := by
  unfold recording ofStep recordStep
  congr 1
  funext p a p'
  obtain ⟨s', r'⟩ := p'
  simp only [Option.map_eq_some_iff, Prod.mk.injEq, eq_iff_iff]
  constructor
  · rintro ⟨hs, rfl⟩
    exact ⟨s', hs, rfl, rfl⟩
  · rintro ⟨s, hs, rfl, rfl⟩
    exact ⟨hs, rfl⟩

end System

/-! ## Refinement -/

variable {σ α τ β : Type*}

/-- `M` refines `N`: every step out of a reachable state of `M` is either invisible
or a step of `N`, and the action it maps to stands in the relation `label` to
the action taken. -/
structure Refinement (M : System σ α) (N : System τ β) where
  /-- The abstract state a state stands for. -/
  view : σ → τ
  /-- What a visible action says about the action it stands for. -/
  label : σ → α → β → Prop
  init : view M.init = N.init
  step : ∀ {s s' : σ} {a : α}, M.Reachable s → M.step s a s' →
    view s' = view s ∨ ∃ b, label s a b ∧ N.step (view s) b (view s')

namespace Refinement

variable {M : System σ α} {N : System τ β} {P : σ → α → Prop} {Q : τ → β → Prop}

/-- Reachable states map to reachable states, when the step condition of the
detailed system gives the one of the abstract system on each visible step. -/
theorem reachableBy (R : Refinement M N)
    (hPQ : ∀ {s a b}, M.ReachableBy P s → P s a → R.label s a b → Q (R.view s) b)
    {s : σ} (h : M.ReachableBy P s) : N.ReachableBy Q (R.view s) := by
  induction h with
  | init => exact R.init ▸ .init
  | step hr hp hs ih =>
    rcases R.step hr.reachable hs with heq | ⟨b, hl, hst⟩
    · exact heq ▸ ih
    · exact .step ih (hPQ hr hp hl) hst

theorem reachable (R : Refinement M N) {s : σ} (h : M.Reachable s) : N.Reachable (R.view s) :=
  R.reachableBy (fun _ _ _ => trivial) h

end Refinement

end EasyTierMac.Transition
