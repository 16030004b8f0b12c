import EasyTierMac.Transition
import Mathlib.Data.List.Pairwise
import Mathlib.Logic.Function.Basic
import Mathlib.Order.Basic

/-!
# Reports that are delivered after the fact

Something makes one transition after another, numbered by an order `κ`. Threads
report transitions on a stream, but not in the step that makes them: a thread
first *owes* the report, and delivers it in a later step of its own. A thread may
also *wait* for a transition that is still to come, and owe the report from then
on.

Nothing orders two threads that owe reports, so the stream can run against the
order of the transitions. It follows the order when no transition is made while
an earlier one is still to be reported (`Prompt`, `sorted_of_reachable`). If in
addition nobody lets go of a report (`Kept`), then the last report on the stream is
about the latest transition as soon as nobody has that one still to report
(`settled_of_reachable`).
-/

namespace EasyTierMac.Delivery

open Function (update)

/-- What a thread still has to put on the stream. -/
inductive Debt (κ : Type*)
  | clear
  /-- It reports transition `k` once that has been made. -/
  | waits (k : κ)
  | owes (k : κ)
  deriving DecidableEq, Repr

/-- The transition a thread is going to report. -/
def Debt.about {κ : Type*} : Debt κ → Option κ
  | .clear => none
  | .waits k | .owes k => some k

structure State (ι κ : Type*) where
  /-- The latest transition. -/
  cur : κ
  debt : ι → Debt κ
  /-- The transitions reported so far. -/
  out : List κ

variable {ι κ : Type*}

section

variable [DecidableEq ι]

/-- Change what thread `i` owes. -/
def State.setDebt (v : State ι κ) (i : ι) (x : Debt κ) : State ι κ :=
  { v with debt := update v.debt i x }

@[simp] theorem State.setDebt_debt_self (v : State ι κ) (i : ι) (x : Debt κ) :
    (v.setDebt i x).debt i = x := Function.update_self ..

theorem State.setDebt_debt_of_ne (v : State ι κ) {i j : ι} (x : Debt κ) (h : j ≠ i) :
    (v.setDebt i x).debt j = v.debt j := Function.update_of_ne h ..

/-- A thread that keeps what it owes changes nothing. -/
theorem State.setDebt_eq_self {v : State ι κ} {i : ι} {x : Debt κ} (h : v.debt i = x) :
    v.setDebt i x = v := by
  unfold State.setDebt
  rw [← h, Function.update_eq_self]

end

inductive Act (ι κ : Type*)
  | pass (k : κ)
  | passBy (i : ι) (k : κ)
  | owe (i : ι)
  | wait (i : ι)
  | redeem (i : ι)
  | deliver (i : ι)
  | drop (i : ι)
  | reopen (i : ι)

/-- The action makes transition `k`. -/
def Act.Passes (k : κ) : Act ι κ → Prop
  | .pass j | .passBy _ j => j = k
  | _ => False

variable [PartialOrder κ]

inductive Step [DecidableEq ι] (v : State ι κ) : Act ι κ → State ι κ → Prop
  /-- A transition that its maker does not report. -/
  | pass {k : κ} (hk : v.cur < k) : Step v (.pass k) { v with cur := k }
  /-- A transition whose maker owes the report. -/
  | passBy {i : ι} {k : κ} (hk : v.cur < k) :
      Step v (.passBy i k) ({ v with cur := k }.setDebt i (.owes k))
  /-- A thread is asked for the current state. -/
  | owe {i : ι} : Step v (.owe i) (v.setDebt i (.owes v.cur))
  | wait {i : ι} {k : κ} (hk : v.cur < k) : Step v (.wait i) (v.setDebt i (.waits k))
  | redeem {i : ι} {k : κ} (hi : v.debt i = .waits k) (hk : k ≤ v.cur) :
      Step v (.redeem i) (v.setDebt i (.owes k))
  | deliver {i : ι} {k : κ} (hi : v.debt i = .owes k) :
      Step v (.deliver i) ({ v with out := v.out ++ [k] }.setDebt i .clear)
  | drop {i : ι} : Step v (.drop i) (v.setDebt i .clear)
  /-- Thread `i` takes a new stream. -/
  | reopen {i : ι} : Step v (.reopen i) ({ v with out := [] }.setDebt i .clear)

/-- Deliveries from transition `k₀` on. -/
def machine (ι : Type*) [DecidableEq ι] (k₀ : κ) : Transition.System (State ι κ) (Act ι κ) :=
  ⟨⟨k₀, fun _ => .clear, []⟩, Step⟩

/-- The latest transition changes by the actions that make one. -/
theorem Step.passes_of_cur_ne [DecidableEq ι] {v v' : State ι κ} {b : Act ι κ}
    (h : Step v b v') (hne : v'.cur ≠ v.cur) : b.Passes v'.cur := by
  cases h with
  | pass | passBy => exact rfl
  | _ => exact absurd rfl hne

/-- A transition that is made is the latest, and a new one. -/
theorem Step.cur_of_passes [DecidableEq ι] {v v' : State ι κ} {b : Act ι κ} {k : κ}
    (h : Step v b v') (hk : b.Passes k) : v'.cur = k ∧ v.cur < k := by
  cases h with
  | pass hlt | passBy hlt =>
    have hk : _ = k := hk
    exact ⟨hk, hk ▸ hlt⟩
  | _ => exact hk.elim

/-- No transition is made while an earlier one is still to be reported. -/
def Prompt (v : State ι κ) (b : Act ι κ) : Prop :=
  ∀ k, b.Passes k → ∀ i j, (v.debt i).about = some j → k ≤ j

/-! ## The stream follows the transitions -/

/-- Every report owed is about the latest transition, those waited for are still to
come, and the stream is in order. -/
structure Ordered (v : State ι κ) : Prop where
  owes : ∀ i k, v.debt i = .owes k → k = v.cur
  waits : ∀ i k, v.debt i = .waits k → v.cur ≤ k
  bound : ∀ k ∈ v.out, k ≤ v.cur
  sorted : v.out.Pairwise (· ≤ ·)

namespace Ordered

variable {v v' : State ι κ} {b : Act ι κ}

theorem setDebt [DecidableEq ι] (hO : Ordered v) {i : ι} {x : Debt κ}
    (howes : ∀ k, x = .owes k → k = v.cur) (hwaits : ∀ k, x = .waits k → v.cur ≤ k) :
    Ordered (v.setDebt i x) where
  owes j k hj := by
    by_cases hji : j = i
    · subst hji
      rw [State.setDebt_debt_self] at hj
      exact howes k hj
    · rw [State.setDebt_debt_of_ne v x hji] at hj
      exact hO.owes j k hj
  waits j k hj := by
    by_cases hji : j = i
    · subst hji
      rw [State.setDebt_debt_self] at hj
      exact hwaits k hj
    · rw [State.setDebt_debt_of_ne v x hji] at hj
      exact hO.waits j k hj
  bound := hO.bound
  sorted := hO.sorted

/-- A transition while nothing earlier is to be reported: nothing is owed at all. -/
theorem pass (hO : Ordered v) {k : κ} (hk : v.cur < k)
    (hp : ∀ i j, (v.debt i).about = some j → k ≤ j) : Ordered { v with cur := k } where
  owes i j hj := by
    have hle : k ≤ j := hp i j (by rw [hj]; rfl)
    rw [hO.owes i j hj] at hle
    exact absurd hk (not_lt_of_ge hle)
  waits i j hj := hp i j (by rw [hj]; rfl)
  bound j hj := (hO.bound j hj).trans hk.le
  sorted := hO.sorted

theorem deliver (hO : Ordered v) {i : ι} {k : κ} (hi : v.debt i = .owes k) :
    Ordered { v with out := v.out ++ [k] } where
  owes := hO.owes
  waits := hO.waits
  bound j hj := by
    rcases List.mem_append.mp hj with hj | hj
    · exact hO.bound j hj
    · rw [List.mem_singleton.mp hj]
      exact (hO.owes i k hi).le
  sorted := by
    rw [List.pairwise_append]
    refine ⟨hO.sorted, List.pairwise_singleton _ _, fun j hj m hm => ?_⟩
    rw [List.mem_singleton.mp hm, hO.owes i k hi]
    exact hO.bound j hj

theorem step [DecidableEq ι] (hO : Ordered v) (hp : Prompt v b) (h : Step v b v') : Ordered v' := by
  cases h with
  | pass hk => exact hO.pass hk (hp _ rfl)
  | @passBy i k hk =>
    refine (hO.pass hk (hp _ rfl)).setDebt ?_ ?_
    · intro j hj
      injection hj with hj
      exact hj.symm
    · intro j hj
      cases hj
  | owe =>
    refine hO.setDebt ?_ ?_
    · intro j hj
      injection hj with hj
      exact hj.symm
    · intro j hj
      cases hj
  | wait hk =>
    refine hO.setDebt ?_ ?_
    · intro j hj
      cases hj
    · intro j hj
      injection hj with hj
      exact hj ▸ hk.le
  | redeem hi hk =>
    refine hO.setDebt ?_ ?_
    · intro j hj
      injection hj with hj
      exact hj ▸ le_antisymm hk (hO.waits _ _ hi)
    · intro j hj
      cases hj
  | deliver hi => exact (hO.deliver hi).setDebt (fun _ h => nomatch h) (fun _ h => nomatch h)
  | drop => exact hO.setDebt (fun _ h => nomatch h) (fun _ h => nomatch h)
  | reopen =>
    have hnil : Ordered { v with out := [] } :=
      ⟨hO.owes, hO.waits, fun _ hj => absurd hj List.not_mem_nil, List.Pairwise.nil⟩
    exact hnil.setDebt (fun _ h => nomatch h) (fun _ h => nomatch h)

end Ordered

theorem ordered_of_reachable [DecidableEq ι] {v : State ι κ} {k₀ : κ}
    (h : (machine ι k₀).ReachableBy Prompt v) : Ordered v := by
  have hinit : Ordered (machine ι k₀).init :=
    ⟨fun _ _ h => (nomatch h), fun _ _ h => (nomatch h), fun _ h => absurd h List.not_mem_nil, .nil⟩
  exact h.invariant hinit fun _ hO hp hs => hO.step hp hs

/-- **In order of the transitions.** While reports are prompt, the stream follows the
order of the transitions. -/
theorem sorted_of_reachable [DecidableEq ι] {v : State ι κ} {k₀ : κ}
    (h : (machine ι k₀).ReachableBy Prompt v) : v.out.Pairwise (· ≤ ·) :=
  (ordered_of_reachable h).sorted

/-- In a list that follows the order of the transitions, an entry about an earlier
transition stands earlier. -/
theorem index_lt_of_sorted {α : Type*} {f : α → Option κ} {l : List α}
    (h : (l.filterMap f).Pairwise (· ≤ ·)) {i j : Nat} {a b : α} {m n : κ} (hi : l[i]? = some a)
    (hj : l[j]? = some b) (ha : f a = some m) (hb : f b = some n) (hmn : m < n) : i < j := by
  by_contra hle
  have hji : j ≤ i := Nat.le_of_not_lt hle
  rcases Nat.eq_or_lt_of_le hji with rfl | hlt
  · -- one entry is about one transition
    rw [hi] at hj
    injection hj with he
    rw [he, hb] at ha
    injection ha with ha
    exact absurd ha hmn.ne'
  · obtain ⟨hi', rfl⟩ := List.getElem?_eq_some_iff.mp hi
    obtain ⟨hj', rfl⟩ := List.getElem?_eq_some_iff.mp hj
    have hnm := List.pairwise_iff_getElem.mp (List.pairwise_filterMap.mp h) j i hj' hi' hlt
      n hb m ha
    exact absurd hmn (not_lt_of_ge hnm)

/-! ## The stream follows to the end -/

/-- No report is lost: a transition that its maker does not report is waited for, a
thread lets go of nothing it owes, and the stream is never replaced. -/
def Kept (v : State ι κ) : Act ι κ → Prop
  | .pass k => ∃ i, v.debt i = .waits k
  | .wait i | .drop i => v.debt i = .clear
  | .reopen _ => False
  | _ => True

/-- The latest transition has been reported, or somebody is going to report it. -/
def Covered (k₀ : κ) (v : State ι κ) : Prop :=
  v.cur = k₀ ∨ v.cur ∈ v.out ∨ ∃ i, (v.debt i).about = some v.cur

namespace Covered

variable {v v' : State ι κ} {b : Act ι κ} {k₀ : κ} [DecidableEq ι]

omit [PartialOrder κ] in
/-- A thread changes what it owes, and the latest transition is still reported. -/
theorem setDebt (hC : Covered k₀ v) {i : ι} {x : Debt κ}
    (hi : (v.debt i).about = some v.cur → x.about = some v.cur) :
    Covered k₀ (v.setDebt i x) := by
  refine hC.imp_right (Or.imp_right ?_)
  intro ⟨j, hj⟩
  by_cases hji : j = i
  · subst hji
    exact ⟨j, by rw [State.setDebt_debt_self]; exact hi hj⟩
  · exact ⟨j, by rw [State.setDebt_debt_of_ne v x hji]; exact hj⟩

theorem step (hC : Covered k₀ v) (hk : Kept v b) (h : Step v b v') : Covered k₀ v' := by
  cases h with
  | pass hlt =>
    obtain ⟨i, hi⟩ := hk
    exact .inr (.inr ⟨i, by rw [hi]; rfl⟩)
  | @passBy i k hlt =>
    refine .inr (.inr ⟨i, ?_⟩)
    rw [State.setDebt_debt_self]
    rfl
  | owe => exact hC.setDebt fun _ => rfl
  | wait | drop =>
    refine hC.setDebt fun hi => ?_
    have hclear : v.debt _ = .clear := hk
    rw [hclear] at hi
    cases hi
  | redeem hi hle =>
    refine hC.setDebt fun hcur => ?_
    rw [hi] at hcur
    exact hcur
  | @deliver i k hi =>
    by_cases hcur : k = v.cur
    · -- this is the report of the latest transition
      refine .inr (.inl ?_)
      show v.cur ∈ v.out ++ [k]
      rw [hcur]
      exact List.mem_append_right _ List.mem_cons_self
    · have hC' : Covered k₀ { v with out := v.out ++ [k] } :=
        hC.imp_right (Or.imp_left fun h => List.mem_append_left _ h)
      refine hC'.setDebt fun hab => ?_
      have hab : (v.debt i).about = some v.cur := hab
      rw [hi] at hab
      injection hab with hab
      exact absurd hab hcur
  | reopen => exact hk.elim

end Covered

/-- **Up to date.** While reports are prompt and none is lost, the last report on the
stream is about the latest transition, unless somebody has that one still to report. -/
theorem settled_of_reachable [DecidableEq ι] {v : State ι κ} {k₀ : κ}
    (h : (machine ι k₀).ReachableBy (fun v b => Prompt v b ∧ Kept v b) v) :
    v.cur = k₀ ∨ v.out.getLast? = some v.cur ∨ ∃ i, (v.debt i).about = some v.cur := by
  have hcov : Covered k₀ v :=
    h.invariant (.inl rfl) fun _ hC hp hs => hC.step hp.2 hs
  refine hcov.imp_right (Or.imp_left fun hmem => ?_)
  -- the stream is in order, so the latest transition stands at its end
  have hord := ordered_of_reachable (h.mono fun _ _ hp => hp.1)
  have hne : v.out ≠ [] := List.ne_nil_of_mem hmem
  have hle : v.out.getLast hne ≤ v.cur := hord.bound _ (List.getLast_mem hne)
  have hge : v.cur ≤ v.out.getLast hne := hord.sorted.rel_getLast hmem
  rw [List.getLast?_eq_some_getLast hne, le_antisymm hle hge]

end EasyTierMac.Delivery
