import Mathlib.Data.List.Basic
import Mathlib.Data.List.Infix
import Mathlib.Logic.Function.Basic

/-!
# Linearizable objects

An `Object` is sequential: `perform` says what a call makes of it in one atomic step, which ends
the call with a result or leaves the rest of it, and `event` how it changes without a call.
Clients that run at the same time call it, have steps performed and get their results; `Entry`
is what can happen, and a log of entries is a concurrent history.

The log is `Linearized` if it explains itself: alone, the steps performed in it are a run of the
object (`Legal`), and every client calls, has its call performed, and gets the result of the last
step (`Talk`). Then each result that a client got is what the object said at a moment between
the call and the result (`Talk.point`).
-/

namespace EasyTierMac

structure Object (σ κ ρ : Type) where
  init : σ
  /-- One step of a call: the rest of the call, or its result. -/
  perform : σ → κ → κ ⊕ ρ → σ → Prop
  /-- A change that no call makes. -/
  event : σ → σ → Prop

namespace Object

variable {σ κ ρ ι : Type} {O : Object σ κ ρ} {s s' : σ} {c : ι}

inductive Entry (ι κ ρ : Type)
  | call (c : ι) (k : κ)
  | perform (c : ι) (k : κ) (out : κ ⊕ ρ)
  | ret (c : ι) (r : ρ)
  | event
  deriving DecidableEq, Repr

/-- Whose entry it is. -/
def Entry.client : Entry ι κ ρ → Option ι
  | .call c _ | .perform c _ _ | .ret c _ => some c
  | .event => none

/-- The entry begins or ends a call of the client. -/
def Entry.Bounds (c : ι) : Entry ι κ ρ → Prop
  | .call d _ | .ret d _ => d = c
  | _ => False

/-- The results that a client has got, in order. -/
def results [DecidableEq ι] (c : ι) (l : List (Entry ι κ ρ)) : List ρ :=
  l.filterMap fun
    | .ret d r => if d = c then some r else none
    | _ => none

/-- What a client is doing. -/
inductive Phase (κ ρ : Type)
  | idle
  /-- It has called, and this is left of the call. -/
  | called (k : κ)
  /-- The call has been performed, and the client has not got the result yet. -/
  | answered (r : ρ)
  deriving DecidableEq, Repr

def Phase.of : κ ⊕ ρ → Phase κ ρ
  | .inl k => .called k
  | .inr r => .answered r

/-- The steps that a log says were performed are a run of the object. -/
inductive Legal (O : Object σ κ ρ) : List (Entry ι κ ρ) → σ → Prop
  | nil : Legal O [] O.init
  | call {l : List (Entry ι κ ρ)} {s : σ} {c : ι} {k : κ} (h : Legal O l s) :
      Legal O (l ++ [.call c k]) s
  | perform {l : List (Entry ι κ ρ)} {s s' : σ} {c : ι} {k : κ} {out : κ ⊕ ρ} (h : Legal O l s)
      (hs : O.perform s k out s') : Legal O (l ++ [.perform c k out]) s'
  | ret {l : List (Entry ι κ ρ)} {s : σ} {c : ι} {r : ρ} (h : Legal O l s) :
      Legal O (l ++ [.ret c r]) s
  | event {l : List (Entry ι κ ρ)} {s s' : σ} (h : Legal O l s) (hs : O.event s s') :
      Legal O (l ++ [.event]) s'

/-- What a client does in a log, and what it is doing at its end. -/
inductive Talk (c : ι) : List (Entry ι κ ρ) → Phase κ ρ → Prop
  | nil : Talk c [] .idle
  | call {l : List (Entry ι κ ρ)} {k : κ} (h : Talk c l .idle) : Talk c (l ++ [.call c k]) (.called k)
  | perform {l : List (Entry ι κ ρ)} {k : κ} {out : κ ⊕ ρ} (h : Talk c l (.called k)) :
      Talk c (l ++ [.perform c k out]) (.of out)
  | ret {l : List (Entry ι κ ρ)} {r : ρ} (h : Talk c l (.answered r)) :
      Talk c (l ++ [.ret c r]) .idle
  | other {l : List (Entry ι κ ρ)} {e : Entry ι κ ρ} {p : Phase κ ρ} (h : Talk c l p)
      (he : e.client ≠ some c) : Talk c (l ++ [e]) p

/-- The log explains the state of the object and what the clients are doing. -/
structure Linearized (O : Object σ κ ρ) (l : List (Entry ι κ ρ)) (s : σ) (phase : ι → Phase κ ρ) :
    Prop where
  legal : Legal O l s
  talks : ∀ c, Talk c l (phase c)

/-! ## Adding to a log -/

namespace Linearized

variable {l : List (Entry ι κ ρ)} {phase phase' : ι → Phase κ ρ}

theorem init : Linearized O ([] : List (Entry ι κ ρ)) O.init fun _ => .idle :=
  ⟨.nil, fun _ => .nil⟩

/-- The log and the phases of one client go on, the others stay where they are. -/
theorem talks_on (h : Linearized O l s phase) {e : Entry ι κ ρ} (hc : e.client = some c)
    (hown : Talk c (l ++ [e]) (phase' c)) (hothers : ∀ d, d ≠ c → phase' d = phase d) (d : ι) :
    Talk d (l ++ [e]) (phase' d) := by
  by_cases hd : d = c
  · rw [hd]
    exact hown
  · rw [hothers d hd]
    refine (h.talks d).other fun he => hd ?_
    exact Option.some.inj (he.symm.trans hc)

theorem call (h : Linearized O l s phase) {k : κ} (hidle : phase c = .idle)
    (hphase : phase' c = .called k) (hothers : ∀ d, d ≠ c → phase' d = phase d) :
    Linearized O (l ++ [.call c k]) s phase' := by
  refine ⟨h.legal.call, h.talks_on rfl ?_ hothers⟩
  have ht := h.talks c
  rw [hidle] at ht
  rw [hphase]
  exact ht.call

theorem perform (h : Linearized O l s phase) {k : κ} {out : κ ⊕ ρ} (hs : O.perform s k out s')
    (hcalled : phase c = .called k) (hphase : phase' c = .of out)
    (hothers : ∀ d, d ≠ c → phase' d = phase d) :
    Linearized O (l ++ [.perform c k out]) s' phase' := by
  refine ⟨h.legal.perform hs, h.talks_on rfl ?_ hothers⟩
  have ht := h.talks c
  rw [hcalled] at ht
  rw [hphase]
  exact ht.perform

theorem ret (h : Linearized O l s phase) {r : ρ} (hanswered : phase c = .answered r)
    (hphase : phase' c = .idle) (hothers : ∀ d, d ≠ c → phase' d = phase d) :
    Linearized O (l ++ [.ret c r]) s phase' := by
  refine ⟨h.legal.ret, h.talks_on rfl ?_ hothers⟩
  have ht := h.talks c
  rw [hanswered] at ht
  rw [hphase]
  exact ht.ret

theorem event (h : Linearized O l s phase) (hs : O.event s s') :
    Linearized O (l ++ [.event]) s' phase := by
  refine ⟨h.legal.event hs, fun d => (h.talks d).other fun he => ?_⟩
  cases he

theorem congr (h : Linearized O l s phase) (hs : s' = s) (hphase : ∀ d, phase' d = phase d) :
    Linearized O l s' phase' := by
  rw [hs, show phase' = phase from funext hphase]
  exact h

end Linearized

/-! ## What a log says -/

theorem Legal.of_append {l l' : List (Entry ι κ ρ)} (h : Legal O (l ++ l') s) :
    ∃ s₁, Legal O l s₁ := by
  induction l' using List.reverseRecOn generalizing s with
  | nil => exact ⟨s, by simpa using h⟩
  | append_singleton l' e ih =>
    rw [← List.append_assoc] at h
    generalize hq : l ++ l' ++ [e] = q at h
    cases h with
    | nil => exact absurd hq (by simp)
    | call h | perform h | ret h | event h =>
      rw [← (List.append_inj' hq rfl).1] at h
      exact ih h

/-- The step that is performed last in a legal log. -/
theorem Legal.performed {l : List (Entry ι κ ρ)} {k : κ} {out : κ ⊕ ρ}
    (h : Legal O (l ++ [.perform c k out]) s') : ∃ s, Legal O l s ∧ O.perform s k out s' := by
  generalize hq : l ++ [.perform c k out] = q at h
  cases h with
  | nil => exact absurd hq (by simp)
  | call h | ret h | event h =>
    have he := (List.append_inj' hq rfl).2
    cases he
  | perform h hs =>
    obtain ⟨hl, he⟩ := List.append_inj' hq rfl
    cases he
    rw [← hl] at h
    exact ⟨_, h, hs⟩

/-- Since its call, of which `k` is left, the client has neither called nor got a result. -/
theorem Talk.since_call {l : List (Entry ι κ ρ)} {k : κ} (h : Talk c l (.called k)) :
    ∃ l₁ k₀ l₂, l = l₁ ++ .call c k₀ :: l₂ ∧ ∀ e ∈ l₂, ¬ e.Bounds c := by
  generalize hp : Phase.called k = p at h
  induction h generalizing k with
  | nil | ret => cases hp
  | @call l k' h ih => exact ⟨l, k', [], rfl, fun e he => absurd he List.not_mem_nil⟩
  | @perform l k' out h ih =>
    obtain ⟨l₁, k₀, l₂, rfl, hl₂⟩ := ih rfl
    refine ⟨l₁, k₀, l₂ ++ [.perform c k' out], by simp, fun e he => ?_⟩
    rcases List.mem_append.mp he with he | he
    · exact hl₂ e he
    · rw [List.mem_singleton.mp he]
      exact id
  | @other l e p h he ih =>
    obtain ⟨l₁, k₀, l₂, rfl, hl₂⟩ := ih hp
    refine ⟨l₁, k₀, l₂ ++ [e], by simp, fun e' he' => ?_⟩
    rcases List.mem_append.mp he' with he' | he'
    · exact hl₂ e' he'
    · rw [List.mem_singleton.mp he']
      intro hb
      cases e with
      | call d k' | ret d r => exact he (congrArg some hb)
      | perform | event => exact hb

/-- A client that has been answered: when its call was performed, since its call. -/
theorem Talk.since_answer {l : List (Entry ι κ ρ)} {r : ρ} (h : Talk c l (.answered r)) :
    ∃ l₁ k₀ l₂ k l₃, l = l₁ ++ .call c k₀ :: l₂ ++ .perform c k (.inr r) :: l₃ ∧
      (∀ e ∈ l₂, ¬ e.Bounds c) ∧ ∀ e ∈ l₃, ¬ e.Bounds c := by
  generalize hp : Phase.answered r = p at h
  induction h with
  | nil | call | ret => cases hp
  | @perform l k out h ih =>
    cases out with
    | inl k' => cases hp
    | inr r' =>
      cases hp
      obtain ⟨l₁, k₀, l₂, rfl, hl₂⟩ := h.since_call
      exact ⟨l₁, k₀, l₂, k, [], rfl, hl₂, fun e he => absurd he List.not_mem_nil⟩
  | @other l e p h he ih =>
    obtain ⟨l₁, k₀, l₂, k, l₃, rfl, hl₂, hl₃⟩ := ih hp
    refine ⟨l₁, k₀, l₂, k, l₃ ++ [e], by simp, hl₂, fun e' he' => ?_⟩
    rcases List.mem_append.mp he' with he' | he'
    · exact hl₃ e' he'
    · rw [List.mem_singleton.mp he']
      intro hb
      cases e with
      | call d k' | ret d r => exact he (congrArg some hb)
      | perform | event => exact hb

theorem Talk.of_append {l l' : List (Entry ι κ ρ)} {p : Phase κ ρ} (h : Talk c (l ++ l') p) :
    ∃ p₁, Talk c l p₁ := by
  induction l' using List.reverseRecOn generalizing p with
  | nil => exact ⟨p, by simpa using h⟩
  | append_singleton l' e ih =>
    rw [← List.append_assoc] at h
    generalize hq : l ++ l' ++ [e] = q at h
    cases h with
    | nil => exact absurd hq (by simp)
    | call h | perform h | ret h | other h =>
      rw [← (List.append_inj' hq rfl).1] at h
      exact ih h

/-- A result that a client has got answered it before. -/
theorem Talk.answered {l : List (Entry ι κ ρ)} {r : ρ} {p : Phase κ ρ}
    (h : Talk c (l ++ [.ret c r]) p) : Talk c l (.answered r) := by
  generalize hq : l ++ [.ret c r] = q at h
  cases h with
  | nil => exact absurd hq (by simp)
  | call | perform =>
    have he := (List.append_inj' hq rfl).2
    cases he
  | ret h =>
    obtain ⟨hl, he⟩ := List.append_inj' hq rfl
    cases he
    rw [hl]
    exact h
  | other h hne =>
    have he := (List.append_inj' hq rfl).2
    cases he
    exact absurd rfl hne

/-- **The point of a call.** Each result that a client has got was what the object answered at a
moment after the call and before the result. -/
theorem Linearized.point {l l' : List (Entry ι κ ρ)} {phase : ι → Phase κ ρ} {r : ρ}
    (h : Linearized O (l ++ .ret c r :: l') s phase) :
    ∃ l₁ k₀ l₂ k l₃ s₁ s₂, l = l₁ ++ .call c k₀ :: l₂ ++ .perform c k (.inr r) :: l₃ ∧
      (∀ e ∈ l₂, ¬ e.Bounds c) ∧ (∀ e ∈ l₃, ¬ e.Bounds c) ∧
      Legal O (l₁ ++ .call c k₀ :: l₂) s₁ ∧ O.perform s₁ k (.inr r) s₂ := by
  have htalk : Talk c (l ++ [.ret c r] ++ l') (phase c) := by
    rw [List.append_assoc]
    exact h.talks c
  obtain ⟨p, htalk⟩ := htalk.of_append
  obtain ⟨l₁, k₀, l₂, k, l₃, rfl, hl₂, hl₃⟩ := htalk.answered.since_answer
  have hlegal : Legal O (l₁ ++ .call c k₀ :: l₂ ++ [.perform c k (.inr r)] ++
      (l₃ ++ .ret c r :: l')) s := by
    have hl := h.legal
    simp only [List.append_assoc, List.cons_append, List.nil_append] at hl ⊢
    exact hl
  obtain ⟨s₂, hlegal⟩ := hlegal.of_append
  obtain ⟨s₁, hbefore, hs⟩ := hlegal.performed
  exact ⟨l₁, k₀, l₂, k, l₃, s₁, s₂, rfl, hl₂, hl₃, hbefore, hs⟩

end Object

end EasyTierMac
