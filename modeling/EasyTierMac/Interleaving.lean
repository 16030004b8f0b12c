import Mathlib.Data.List.Perm.Basic
import Mathlib.Logic.Function.Basic
import EasyTierMac.Program
import EasyTierMac.Transition

/-!
# Calls that overlap

A `Service` answers calls. Each call is a program of atomic operations on shared state;
between two of them anything else can happen, operations of other calls and events of the
environment. `Service.system` is that interleaving.

`Serial` is the same without overlap: one call after the other, with the events anywhere. A
service whose calls have all returned is `Serialisable` if some serial run gives every call
the result that it had, and ends in a state that looks the same.

`serialisable` is the rule for it: as long as the calls that overlap only read, and nothing
changes under them (`Unmixed`), the order in which the calls return is a serial order. A call
that is alone may write, and events may change the state under it.
-/

namespace EasyTierMac

open Function (update)
open Program (Machine All)

structure Service (σ Op : Type) (Res : Op → Type) (κ ρ ε : Type) where
  machine : Machine σ Op Res
  /-- The code of a call. -/
  body : κ → Program Op Res ρ
  /-- What an event makes of the state. -/
  effect : ε → σ → σ

namespace Service

variable {σ Op : Type} {Res : Op → Type} {κ ρ ε τ : Type} {V : Service σ Op Res κ ρ ε}

/-! ## The interleaving -/

/-- A call that has not returned. -/
structure Thread (Op : Type) (Res : Op → Type) (κ ρ : Type) where
  call : κ
  /-- What is left of its code. -/
  code : Program Op Res ρ
  /-- The epoch in which it performed its first operation. -/
  begun : Option Nat := none

/-- The last three fields are ghost state, which no step reads but to copy it. -/
structure Pool (σ Op : Type) (Res : Op → Type) (κ ρ ε : Type) where
  shared : σ
  threads : Nat → Option (Thread Op Res κ ρ) := fun _ => none
  /-- The number of the next call. -/
  next : Nat := 0
  /-- The calls that have returned, with their results, in this order. -/
  returned : List (κ × ρ) := []
  /-- The events that have happened. -/
  events : List ε := []
  /-- How many of them have changed the state. -/
  epoch : Nat := 0

inductive Action (V : Service σ Op Res κ ρ ε)
  | invoke (k : κ)
  /-- The call `i` performs its next operation, which goes as `how` says. -/
  | perform (i : Nat) (how : ∀ o, V.machine.Outcome o)
  /-- The call `i` returns. -/
  | finish (i : Nat)
  | event (e : ε)

def step [DecidableEq σ] (V : Service σ Op Res κ ρ ε) (p : Pool σ Op Res κ ρ ε) :
    V.Action → Option (Pool σ Op Res κ ρ ε)
  | .invoke k => some { p with
      threads := update p.threads p.next (some { call := k, code := V.body k })
      next := p.next + 1 }
  | .perform i how =>
    match p.threads i with
    | some ⟨k, .op o f, begun⟩ => (V.machine.act p.shared o (how o)).map fun (r, s) => { p with
        shared := s
        threads := update p.threads i (some ⟨k, f r, some (begun.getD p.epoch)⟩) }
    | _ => none
  | .finish i =>
    match p.threads i with
    | some ⟨k, .ret a, _⟩ => some { p with
        threads := update p.threads i none
        returned := p.returned ++ [(k, a)] }
    | _ => none
  | .event e => some { p with
      shared := V.effect e p.shared
      events := p.events ++ [e]
      epoch := if V.effect e p.shared = p.shared then p.epoch else p.epoch + 1 }

/-- The service from the state `s₀` on. -/
def system [DecidableEq σ] (V : Service σ Op Res κ ρ ε) (s₀ : σ) :
    Transition.System (Pool σ Op Res κ ρ ε) V.Action := .ofStep { shared := s₀ } V.step

variable {s₀ : σ} {p p' : Pool σ Op Res κ ρ ε} {i : Nat} {k : κ}

/-- The number of the next call is free. -/
def Fresh (p : Pool σ Op Res κ ρ ε) : Prop := ∀ i, p.next ≤ i → p.threads i = none

theorem Fresh.lt (h : Fresh p) {t : Thread Op Res κ ρ} (ht : p.threads i = some t) : i < p.next := by
  by_contra hle
  rw [h i (Nat.le_of_not_lt hle)] at ht
  cases ht

/-- The thread of a call that exists changes. -/
theorem Fresh.set (h : Fresh p) {t : Thread Op Res κ ρ} (ht : p.threads i = some t)
    (o : Option (Thread Op Res κ ρ)) (j : Nat) (hj : p.next ≤ j) : update p.threads i o j = none := by
  have hne : j ≠ i := by
    rintro rfl
    exact absurd (h.lt ht) (Nat.not_lt.mpr hj)
  rw [Function.update_of_ne hne]
  exact h j hj

theorem Fresh.step [DecidableEq σ] (h : Fresh p) {a : V.Action} (hs : V.step p a = some p') :
    Fresh p' := by
  cases a with
  | invoke k =>
    cases hs
    intro j hj
    have hne : j ≠ p.next := Nat.ne_of_gt hj
    simp only [Function.update_of_ne hne]
    exact h j (Nat.le_of_succ_le hj)
  | perform i how =>
    simp only [Service.step] at hs
    split at hs
    · next k o f b hti =>
      obtain ⟨⟨r, s'⟩, -, rfl⟩ := Option.map_eq_some_iff.mp hs
      exact h.set hti _
    · cases hs
  | finish i =>
    simp only [Service.step] at hs
    split at hs
    · next k a b hti =>
      cases hs
      exact h.set hti _
    · cases hs
  | event e =>
    cases hs
    exact h

theorem fresh_of_reachable [DecidableEq σ] {P : Pool σ Op Res κ ρ ε → V.Action → Prop}
    (h : (V.system s₀).ReachableBy P p) : Fresh p :=
  h.invariant (I := Fresh) (fun _ _ => rfl) fun _ hF _ hs => hF.step hs

/-- All calls have returned. -/
def Pool.quiet (p : Pool σ Op Res κ ρ ε) : Bool :=
  (List.range p.next).all fun i => (p.threads i).isNone

theorem Fresh.none_of_quiet (h : Fresh p) (hq : p.quiet = true) (i : Nat) : p.threads i = none := by
  by_cases hi : i < p.next
  · exact Option.isNone_iff_eq_none.mp (List.all_eq_true.mp hq i (List.mem_range.mpr hi))
  · exact h i (Nat.le_of_not_lt hi)

/-! ## Serial runs -/

/-- A part of a call, from one point of its code to another one, and the events meanwhile. -/
inductive Amid (V : Service σ Op Res κ ρ ε) :
    Program Op Res ρ → σ → List ε → Program Op Res ρ → σ → Prop
  | here {p : Program Op Res ρ} {s : σ} : Amid V p s [] p s
  | op {o : Op} {f : Res o → Program Op Res ρ} {q : Program Op Res ρ} {x : V.machine.Outcome o}
      {r : Res o} {s s₁ s' : σ} {es : List ε} (hact : V.machine.act s o x = some (r, s₁))
      (h : Amid V (f r) s₁ es q s') : Amid V (.op o f) s es q s'
  | event {p q : Program Op Res ρ} {s s' : σ} {e : ε} {es : List ε}
      (h : Amid V p (V.effect e s) es q s') : Amid V p s (e :: es) q s'

/-- One call after the other: the events, and the calls with their results. -/
inductive Serial (V : Service σ Op Res κ ρ ε) (s₀ : σ) : List ε → List (κ × ρ) → σ → Prop
  | nil : Serial V s₀ [] [] s₀
  | event {s : σ} {es : List ε} {l : List (κ × ρ)} (h : Serial V s₀ es l s) (e : ε) :
      Serial V s₀ (es ++ [e]) l (V.effect e s)
  | call {s s' : σ} {es es' : List ε} {l : List (κ × ρ)} {k : κ} {a : ρ} (h : Serial V s₀ es l s)
      (hc : V.Amid (V.body k) s es' (.ret a) s') : Serial V s₀ (es ++ es') (l ++ [(k, a)]) s'

/-- Once all calls have returned, a serial run explains their results and what `view` shows of
the state. -/
def Serialisable (V : Service σ Op Res κ ρ ε) (view : σ → τ) (s₀ : σ)
    (p : Pool σ Op Res κ ρ ε) : Prop :=
  (∀ i, p.threads i = none) →
    ∃ l s, l.Perm p.returned ∧ V.Serial s₀ p.events l s ∧ view s = view p.shared

section

variable {p q q' : Program Op Res ρ} {s s₁ s' : σ} {es es' : List ε}

namespace Amid

theorem trans (h : V.Amid p s es q s₁) (h' : V.Amid q s₁ es' q' s') :
    V.Amid p s (es ++ es') q' s' := by
  induction h with
  | here => exact h'
  | op hact _ ih => exact .op hact (ih h')
  | event _ ih => exact .event (ih h')

/-- The call performs one more operation. -/
theorem more {o : Op} {f : Res o → Program Op Res ρ} {x : V.machine.Outcome o} {r : Res o}
    (h : V.Amid p s es (.op o f) s₁) (hact : V.machine.act s₁ o x = some (r, s')) :
    V.Amid p s es (f r) s' := by
  have hmore := h.trans (.op hact .here)
  rwa [List.append_nil] at hmore

/-- What is left of a program has no other operations than the program. -/
theorem all {P : Op → Prop} (h : V.Amid p s es q s') (hp : All P p) : All P q := by
  induction h with
  | here => exact hp
  | op _ _ ih => exact ih (hp.2 _)
  | event _ ih => exact ih hp

/-- Without events a part that returns is a run. -/
theorem runs {a : ρ} (h : V.Amid p s [] (.ret a) s') : ∃ tr, Program.Runs V.machine p s tr a s' := by
  generalize hes : ([] : List ε) = es at h
  generalize hq : (Program.ret a : Program Op Res ρ) = q at h
  induction h with
  | here => exact ⟨[], hq ▸ .ret⟩
  | op hact _ ih =>
    obtain ⟨tr, hrun⟩ := ih hes hq
    exact ⟨_, .op hact hrun⟩
  | event => cases hes

end Amid

/-- The last call of a serial run without events. -/
theorem Serial.last {l l' : List (κ × ρ)} {k : κ} {a : ρ} (h : V.Serial s₁ es l' s') (hes : es = [])
    (hl : l' = l ++ [(k, a)]) :
    ∃ s tr, V.Serial s₁ [] l s ∧ Program.Runs V.machine (V.body k) s tr a s' := by
  cases h with
  | nil => exact absurd hl (by simp)
  | event h e => exact absurd hes (by simp)
  | call h hc =>
    obtain ⟨rfl, hlast⟩ := List.append_inj' hl rfl
    cases hlast
    obtain ⟨rfl, rfl⟩ := List.append_eq_nil_iff.mp hes
    obtain ⟨tr, hrun⟩ := hc.runs
    exact ⟨_, tr, h, hrun⟩

end

/-! ## Calls that do not mix -/

variable {writes : κ → Bool}

/-- A call performs an operation while another one has begun only if both of them read, and
nothing has changed since the other one began; and an event changes the state only while at
most one call has begun. -/
def Unmixed (V : Service σ Op Res κ ρ ε) (writes : κ → Bool) (p : Pool σ Op Res κ ρ ε) :
    V.Action → Prop
  | .perform i _ => ∀ t ∈ p.threads i, ∀ j < p.next, j ≠ i → ∀ u ∈ p.threads j, ∀ n ∈ u.begun,
      writes t.call = false ∧ writes u.call = false ∧ n = p.epoch
  | .event e => V.effect e p.shared = p.shared ∨
      ∀ j < p.next, ∀ u ∈ p.threads j, ∀ k < p.next, ∀ v ∈ p.threads k,
        u.begun.isSome = true → v.begun.isSome = true → j = k
  | _ => True

instance [DecidableEq σ] : ∀ p a, Decidable (V.Unmixed writes p a) := fun p a => by
  unfold Unmixed
  split <;> infer_instance

/-- The operation leaves the state alone. -/
def Reads (V : Service σ Op Res κ ρ ε) (o : Op) : Prop :=
  ∀ s x r s', V.machine.act s o x = some (r, s') → s' = s

/-- The calls that have begun read, and nothing has changed since. They are not in the serial
run yet: each can be put at its end when it returns. -/
structure Reading (V : Service σ Op Res κ ρ ε) (writes : κ → Bool) (s₀ : σ)
    (p : Pool σ Op Res κ ρ ε) : Prop where
  serial : V.Serial s₀ p.events p.returned p.shared
  amid : ∀ i t n, p.threads i = some t → t.begun = some n → writes t.call = false ∧
    n = p.epoch ∧ V.Amid (V.body t.call) p.shared [] t.code p.shared

/-- The call `i` is alone, and writes or has seen a change: it is the next one in the serial
run. -/
structure Alone (V : Service σ Op Res κ ρ ε) (writes : κ → Bool) (s₀ : σ)
    (p : Pool σ Op Res κ ρ ε) (i : Nat) : Prop where
  amid : ∃ es es' s t n, p.events = es ++ es' ∧ V.Serial s₀ es p.returned s ∧
    p.threads i = some t ∧ t.begun = some n ∧ (writes t.call = false → n < p.epoch) ∧
    V.Amid (V.body t.call) s es' t.code p.shared
  others : ∀ j u, j ≠ i → p.threads j = some u → u.begun = none

/-- The invariant: the calls that have returned are a serial run, in their order. -/
structure Ordered (V : Service σ Op Res κ ρ ε) (writes : κ → Bool) (s₀ : σ)
    (p : Pool σ Op Res κ ρ ε) : Prop where
  idle : ∀ i t, p.threads i = some t → t.begun = none → t.code = V.body t.call
  run : V.Reading writes s₀ p ∨ ∃ i, V.Alone writes s₀ p i

namespace Ordered

/-- Where a call stands that is not in the serial run yet. -/
theorem amid_of_reading (h : V.Ordered writes s₀ p) (hr : V.Reading writes s₀ p)
    {t : Thread Op Res κ ρ} (ht : p.threads i = some t) :
    V.Amid (V.body t.call) p.shared [] t.code p.shared := by
  cases hb : t.begun with
  | some n => exact (hr.amid i t n ht hb).2.2
  | none =>
    rw [h.idle i t ht hb]
    exact .here

variable [DecidableEq σ]

theorem invoke (h : V.Ordered writes s₀ p) (hF : Fresh p) (hs : V.step p (.invoke k) = some p') :
    V.Ordered writes s₀ p' := by
  cases hs
  have hold {j : Nat} {t : Thread Op Res κ ρ}
      (ht : update p.threads p.next (some { call := k, code := V.body k }) j = some t) :
      t = { call := k, code := V.body k } ∨ p.threads j = some t := by
    by_cases hj : j = p.next
    · subst hj
      rw [Function.update_self] at ht
      exact .inl (Option.some.inj ht).symm
    · rw [Function.update_of_ne hj] at ht
      exact .inr ht
  refine ⟨fun j t ht hb => ?_, ?_⟩
  · rcases hold ht with rfl | ht
    · rfl
    · exact h.idle j t ht hb
  · rcases h.run with hr | ⟨i, hw⟩
    · refine .inl ⟨hr.serial, fun j t n ht hb => ?_⟩
      rcases hold ht with rfl | ht
      · cases hb
      · exact hr.amid j t n ht hb
    · obtain ⟨es, es', s, t, n, hes, hser, ht, hrest⟩ := hw.amid
      have hne : i ≠ p.next := Nat.ne_of_lt (hF.lt ht)
      refine .inr ⟨i, ⟨es, es', s, t, n, hes, hser, ?_, hrest⟩, fun j u hj hu => ?_⟩
      · simp only [Function.update_of_ne hne]
        exact ht
      · rcases hold hu with rfl | hu
        · rfl
        · exact hw.others j u hj hu

theorem event {e : ε} (h : V.Ordered writes s₀ p) (hF : Fresh p) (hp : V.Unmixed writes p (.event e))
    (hs : V.step p (.event e) = some p') : V.Ordered writes s₀ p' := by
  cases hs
  refine ⟨h.idle, ?_⟩
  rcases h.run with hr | ⟨i, hw⟩
  · have hser := hr.serial.event e
    by_cases hsame : V.effect e p.shared = p.shared
    · refine .inl ⟨hser, fun j t n ht hb => ?_⟩
      simp only [hsame, if_true]
      exact hr.amid j t n ht hb
    · have hone := hp.resolve_left hsame
      by_cases hany : ∃ i t n, p.threads i = some t ∧ t.begun = some n
      · -- the one call that has begun sees the change
        obtain ⟨i, t, n, ht, hb⟩ := hany
        obtain ⟨-, hn, ham⟩ := hr.amid i t n ht hb
        refine .inr ⟨i, ⟨p.events, [e], p.shared, t, n, rfl, hr.serial, ht, hb, fun _ => ?_,
          ham.trans (.event .here)⟩, fun j u hj hu => ?_⟩
        · simp only [if_neg hsame]
          omega
        · by_contra hbu
          refine hj (hone j (hF.lt hu) u hu i (hF.lt ht) t ht ?_ (by simp [hb]))
          exact Option.isSome_iff_ne_none.mpr hbu
      · exact .inl ⟨hser, fun j t n ht hb => absurd ⟨j, t, n, ht, hb⟩ hany⟩
  · obtain ⟨es, es', s, t, n, hes, hser, ht, hb, hseen, ham⟩ := hw.amid
    refine .inr ⟨i, ⟨es, es' ++ [e], s, t, n, ?_, hser, ht, hb, fun hr => ?_, ?_⟩, hw.others⟩
    · rw [hes, List.append_assoc]
    · have hlt := hseen hr
      dsimp only
      split
      · exact hlt
      · exact Nat.lt_succ_of_lt hlt
    · exact ham.trans (.event .here)

theorem perform {how : ∀ o, V.machine.Outcome o} (h : V.Ordered writes s₀ p) (hF : Fresh p)
    (hreads : ∀ k, writes k = false → All V.Reads (V.body k))
    (hp : V.Unmixed writes p (.perform i how)) (hs : V.step p (.perform i how) = some p') :
    V.Ordered writes s₀ p' := by
  simp only [step] at hs
  split at hs
  · next k o f b hti =>
    obtain ⟨⟨r, s'⟩, hact, rfl⟩ := Option.map_eq_some_iff.mp hs
    have hnew {j : Nat} {t : Thread Op Res κ ρ}
        (ht : update p.threads i (some ⟨k, f r, some (b.getD p.epoch)⟩) j = some t) :
        j = i ∧ t = ⟨k, f r, some (b.getD p.epoch)⟩ ∨ j ≠ i ∧ p.threads j = some t := by
      by_cases hj : j = i
      · subst hj
        rw [Function.update_self] at ht
        exact .inl ⟨rfl, (Option.some.inj ht).symm⟩
      · rw [Function.update_of_ne hj] at ht
        exact .inr ⟨hj, ht⟩
    refine ⟨fun j t ht hb => ?_, ?_⟩
    · rcases hnew ht with ⟨-, rfl⟩ | ⟨-, ht⟩
      · cases hb
      · exact h.idle j t ht hb
    · rcases h.run with hr | ⟨i₀, hw⟩
      · have ham := h.amid_of_reading hr hti
        have hepoch : b.getD p.epoch = p.epoch := by
          cases b with
          | none => rfl
          | some n => exact (hr.amid i _ n hti rfl).2.1
        cases hwr : writes k with
        | false =>
          -- a read: the state is as it was
          have hsame : s' = p.shared := (ham.all (hreads k hwr)).1 _ _ _ _ hact
          subst hsame
          refine .inl ⟨hr.serial, fun j t n ht hb => ?_⟩
          rcases hnew ht with ⟨-, rfl⟩ | ⟨-, ht⟩
          · exact ⟨hwr, (Option.some.inj hb).symm.trans hepoch, ham.more hact⟩
          · exact hr.amid j t n ht hb
        | true =>
          -- a write: the call begins, and no other one has
          refine .inr ⟨i, ⟨p.events, [], p.shared, ⟨k, f r, some (b.getD p.epoch)⟩, _, ?_, hr.serial,
            ?_, rfl, fun hno => ?_, ham.more hact⟩, fun j u hj hu => ?_⟩
          · exact (List.append_nil _).symm
          · exact Function.update_self ..
          · simp [hwr] at hno
          · rcases hnew hu with ⟨he, -⟩ | ⟨-, hu⟩
            · exact absurd he hj
            · cases hb : u.begun with
              | none => rfl
              | some n =>
                have hno := (hp _ hti j (hF.lt hu) hj u hu n hb).1
                simp [hwr] at hno
      · obtain ⟨es, es', s, t, n, hes, hser, ht, hb, hseen, ham⟩ := hw.amid
        by_cases hi : i = i₀
        · subst hi
          rw [hti] at ht
          cases ht
          cases hb
          refine .inr ⟨i, ⟨es, es', s, ⟨k, f r, some n⟩, n, hes, hser, ?_, rfl, hseen,
            ham.more hact⟩, fun j u hj hu => ?_⟩
          · exact Function.update_self ..
          · rcases hnew hu with ⟨he, -⟩ | ⟨-, hu⟩
            · exact absurd he hj
            · exact hw.others j u hj hu
        · obtain ⟨-, hno, hn⟩ := hp _ hti i₀ (hF.lt ht) (Ne.symm hi) t ht n hb
          have hlt := hseen hno
          omega
  · cases hs

theorem finish (h : V.Ordered writes s₀ p) (hs : V.step p (.finish i) = some p') :
    V.Ordered writes s₀ p' := by
  simp only [step] at hs
  split at hs
  · next k a b hti =>
    cases hs
    have hold {j : Nat} {t : Thread Op Res κ ρ} (ht : update p.threads i none j = some t) :
        j ≠ i ∧ p.threads j = some t := by
      by_cases hj : j = i
      · subst hj
        rw [Function.update_self] at ht
        cases ht
      · rw [Function.update_of_ne hj] at ht
        exact ⟨hj, ht⟩
    refine ⟨fun j t ht hb => h.idle j t (hold ht).2 hb, ?_⟩
    -- either every call that is under way only reads, or one call is alone
    · rcases h.run with hr | ⟨i₀, hw⟩
      · have hser := hr.serial.call (h.amid_of_reading hr hti)
        rw [List.append_nil] at hser
        exact .inl ⟨hser, fun j t n ht hb => hr.amid j t n (hold ht).2 hb⟩
      · obtain ⟨es, es', s, t, n, hes, hser, ht, hb, hseen, ham⟩ := hw.amid
        -- the call that returns is the one that is alone, or another one
        by_cases hi : i = i₀
        · subst hi
          rw [hti] at ht
          cases ht
          refine .inl ⟨?_, fun j u m hu hbu => ?_⟩
          · show V.Serial s₀ p.events _ p.shared
            rw [hes]
            exact hser.call ham
          · obtain ⟨hj, hu⟩ := hold hu
            rw [hw.others j u hj hu] at hbu
            cases hbu
        · -- a call without operations returns while another one is alone
          have hbody : .ret a = V.body k := h.idle i _ hti (hw.others i _ hi hti)
          have hcall : V.Amid (V.body k) s [] (.ret a) s := by
            rw [← hbody]
            exact .here
          have hser' := hser.call hcall
          rw [List.append_nil] at hser'
          refine .inr ⟨i₀, ⟨es, es', s, t, n, hes, hser', ?_, hb, hseen, ham⟩,
            fun j u hj hu => hw.others j u hj (hold hu).2⟩
          simp only [Function.update_of_ne (Ne.symm hi)]
          exact ht
  · cases hs

end Ordered

theorem ordered_of_reachable [DecidableEq σ]
    (hreads : ∀ k, writes k = false → All V.Reads (V.body k))
    (h : (V.system s₀).ReachableBy (V.Unmixed writes) p) : V.Ordered writes s₀ p := by
  have hinit : V.Ordered writes s₀ (V.system s₀).init :=
    ⟨fun _ _ ht => (nomatch ht), .inl ⟨.nil, fun _ _ _ ht => (nomatch ht)⟩⟩
  refine h.invariant hinit fun {p a p'} hr hO hp hs => ?_
  have hF := fresh_of_reachable hr
  cases a with
  | invoke k => exact hO.invoke hF hs
  | perform i how => exact hO.perform hF hreads hp hs
  | finish i => exact hO.finish hs
  | event e => exact hO.event hF hp hs

/-- **Calls that do not mix are serialisable**, in the order in which they return. -/
theorem serialisable [DecidableEq σ] (view : σ → τ)
    (hreads : ∀ k, writes k = false → All V.Reads (V.body k))
    (h : (V.system s₀).ReachableBy (V.Unmixed writes) p) : V.Serialisable view s₀ p := by
  intro hnone
  have hO := ordered_of_reachable hreads h
  rcases hO.run with hr | ⟨i, hw⟩
  · exact ⟨p.returned, p.shared, .refl _, hr.serial, rfl⟩
  · obtain ⟨es, es', s, t, n, -, -, ht, -⟩ := hw.amid
    rw [hnone i] at ht
    cases ht

end Service

end EasyTierMac
