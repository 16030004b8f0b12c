import EasyTierMac.Transition

/-!
# Where a system can be led

`Leads P A B`: from every reachable state with `A`, steps that meet `P` can lead to a state
with `B`. Said of every reachable state, it excludes that the system is stuck there for good;
the stronger `P`, the fewer steps are needed of whoever else takes part.

A proof goes phase by phase: one step (`Leads.of_step`), one phase after the other
(`Leads.trans`), one of several (`Leads.or`, `Leads.bind`), and a loop by a measure
(`Leads.descend`). What the steps that meet `P` keep is carried along (`Leads.keep`), so that
a phase need not mention it.
-/

namespace EasyTierMac.Transition.System

variable {σ α : Type*} {M : System σ α} {P : σ → α → Prop} {A B C I : σ → Prop}

/-- From every reachable state with `A`, steps that meet `P` can lead to a state with `B`. -/
def Leads (M : System σ α) (P : σ → α → Prop) (A B : σ → Prop) : Prop :=
  ∀ s, M.Reachable s → A s → ∃ s', M.PathBy P s s' ∧ B s'

/-- Steps that meet `P` keep `I`. -/
def Stable (M : System σ α) (P : σ → α → Prop) (I : σ → Prop) : Prop :=
  ∀ s a s', M.Reachable s → I s → P s a → M.step s a s' → I s'

/-- What is reached from a reachable state is reachable. -/
theorem PathBy.reachable {s s' : σ} (hs : M.Reachable s) (h : M.PathBy P s s') : M.Reachable s' :=
  ReachableBy.path hs (h.mono fun _ _ _ => trivial)

theorem Stable.path (hI : M.Stable P I) {s s' : σ} (hr : M.Reachable s) (hs : I s)
    (h : M.PathBy P s s') : I s' := by
  induction h with
  | refl => exact hs
  | tail hpath hp hst ih => exact hI _ _ _ (hpath.reachable hr) ih hp hst

theorem Stable.and {J : σ → Prop} (hI : M.Stable P I) (hJ : M.Stable P J) :
    M.Stable P fun s => I s ∧ J s := by
  intro s a s' hr hs hp hst
  exact ⟨hI s a s' hr hs.1 hp hst, hJ s a s' hr hs.2 hp hst⟩

namespace Leads

theorem of_imp (h : ∀ s, M.Reachable s → A s → B s) : M.Leads P A B := by
  intro s hr hs
  exact ⟨s, .refl, h s hr hs⟩

theorem of_step (h : ∀ s, M.Reachable s → A s → ∃ a s', P s a ∧ M.step s a s' ∧ B s') :
    M.Leads P A B := by
  intro s hr hs
  obtain ⟨a, s', hp, hst, hb⟩ := h s hr hs
  exact ⟨s', .tail .refl hp hst, hb⟩

theorem trans (h : M.Leads P A B) (h' : M.Leads P B C) : M.Leads P A C := by
  intro s hr hs
  obtain ⟨s₁, hpath₁, hb⟩ := h s hr hs
  obtain ⟨s₂, hpath₂, hc⟩ := h' s₁ (hpath₁.reachable hr) hb
  exact ⟨s₂, hpath₁.trans hpath₂, hc⟩

theorem imp (h : M.Leads P A B) (hBC : ∀ s, M.Reachable s → B s → C s) : M.Leads P A C :=
  h.trans (of_imp hBC)

theorem or (h : M.Leads P A C) (h' : M.Leads P B C) : M.Leads P (fun s => A s ∨ B s) C := by
  intro s hr hs
  rcases hs with hs | hs
  · exact h s hr hs
  · exact h' s hr hs

/-- A phase that ends in one of several states, and what follows each of them. -/
theorem bind {ι : Type*} {F : ι → σ → Prop} (h : M.Leads P A fun s => ∃ i, F i s)
    (h' : ∀ i, M.Leads P (F i) C) : M.Leads P A C := by
  refine h.trans ?_
  rintro s hr ⟨i, hs⟩
  exact h' i s hr hs

/-- **A loop ends**: each round gets out of it or lowers the measure. -/
theorem descend (μ : σ → Nat) (h : ∀ n, M.Leads P (fun s => A s ∧ μ s = n)
    fun s => B s ∨ A s ∧ μ s < n) : M.Leads P A B := by
  have hall : ∀ n, M.Leads P (fun s => A s ∧ μ s = n) B := by
    intro n
    induction n using Nat.strongRecOn with
    | ind n ih =>
      refine (h n).trans ((of_imp fun _ _ hb => hb).or ?_)
      intro s hr hs
      exact ih (μ s) hs.2 s hr ⟨hs.1, rfl⟩
  intro s hr hs
  exact hall (μ s) s hr ⟨hs, rfl⟩

/-- What the steps keep holds at the end if it does at the beginning. -/
theorem keep (hI : M.Stable P I) (h : M.Leads P A B) :
    M.Leads P (fun s => A s ∧ I s) fun s => B s ∧ I s := by
  intro s hr hs
  obtain ⟨s', hpath, hb⟩ := h s hr hs.1
  exact ⟨s', hpath, hb, hI.path hr hs.2 hpath⟩

end Leads

end EasyTierMac.Transition.System
