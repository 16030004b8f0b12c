import EasyTierMac.Interleaving

/-!
# Programs under interference

Between two operations of a program, events of its environment can change the state.
`RunsAmid` is a complete run with the events that came in between, and `Ends` a Hoare triple for
such runs: the precondition has to survive the events (`Stable`), and then the program is taken
operation by operation (`Ends.ret`, `Ends.op`, `Ends.bind`).

For a service, `Serial.rule` goes on from the triples of its calls to what holds after any
serial run, of the state and of the results that were returned on the way, and `serial_of_idle`
to any run whose calls do not mix.

`AtMost` counts: a call performs no more operations of a kind than its code has on any one
path, however it is interleaved with others.
-/

namespace EasyTierMac

namespace Program

variable {Op : Type} {Res : Op → Type} {α β σ ε : Type}

/-- A complete run, with the events that change the state between its operations. -/
inductive RunsAmid (M : Machine σ Op Res) (effect : ε → σ → σ) {α : Type} :
    Program Op Res α → σ → List ε → α → σ → Prop
  | ret {a : α} {s : σ} : RunsAmid M effect (.ret a) s [] a s
  | op {o : Op} {k : Res o → Program Op Res α} {x : M.Outcome o} {r : Res o} {s s₁ s' : σ}
      {es : List ε} {a : α} (hact : M.act s o x = some (r, s₁))
      (h : RunsAmid M effect (k r) s₁ es a s') : RunsAmid M effect (.op o k) s es a s'
  | event {p : Program Op Res α} {s s' : σ} {e : ε} {es : List ε} {a : α}
      (h : RunsAmid M effect p (effect e s) es a s') : RunsAmid M effect p s (e :: es) a s'

variable {M : Machine σ Op Res} {effect : ε → σ → σ} {s s' : σ} {es : List ε}

/-- A run of two programs, one after the other, is a run of the first and one of the second. -/
theorem RunsAmid.of_bind {p : Program Op Res α} {f : α → Program Op Res β} {b : β}
    (h : RunsAmid M effect (p >>= f) s es b s') : ∃ a s₁ es₁ es₂, es = es₁ ++ es₂ ∧
      RunsAmid M effect p s es₁ a s₁ ∧ RunsAmid M effect (f a) s₁ es₂ b s' := by
  generalize hq : p >>= f = q at h
  induction h generalizing p with
  | @ret b s =>
    cases p with
    | ret a =>
      have hf : f a = .ret b := hq
      refine ⟨a, s, [], [], rfl, .ret, ?_⟩
      rw [hf]
      exact .ret
    | op o k => cases hq
  | @op o k x r s s₁ s' es b hact h ih =>
    cases p with
    | ret a =>
      have hf : f a = .op o k := hq
      refine ⟨a, s, [], es, rfl, .ret, ?_⟩
      rw [hf]
      exact .op hact h
    | op o' k' =>
      cases hq
      obtain ⟨a, s₂, es₁, es₂, rfl, h₁, h₂⟩ := ih rfl
      exact ⟨a, s₂, es₁, es₂, rfl, .op hact h₁, h₂⟩
  | @event q s s' e es b h ih =>
    obtain ⟨a, s₂, es₁, es₂, rfl, h₁, h₂⟩ := ih hq
    exact ⟨a, s₂, e :: es₁, es₂, rfl, .event h₁, h₂⟩

/-! ## Triples -/

/-- Events with `E` keep `P`. -/
def Stable (effect : ε → σ → σ) (E : ε → Prop) (P : σ → Prop) : Prop :=
  ∀ e, E e → ∀ s, P s → P (effect e s)

/-- From a state with `P`, and with events in between that have `E`, the program ends, if it
ends, with a result and a state with `Q`. -/
def Ends (M : Machine σ Op Res) (effect : ε → σ → σ) (E : ε → Prop) (P : σ → Prop)
    (p : Program Op Res α) (Q : α → σ → Prop) : Prop :=
  ∀ s es a s', (∀ e ∈ es, E e) → P s → RunsAmid M effect p s es a s' → Q a s'

namespace Ends

variable {E : ε → Prop} {P P' : σ → Prop} {Q Q' : α → σ → Prop} {R : β → σ → Prop}

theorem mono {p : Program Op Res α} (h : Ends M effect E P p Q) (hP : ∀ s, P' s → P s)
    (hQ : ∀ a s, Q a s → Q' a s) : Ends M effect E P' p Q' := by
  intro s es a s' hes hs hrun
  exact hQ a s' (h s es a s' hes (hP s hs) hrun)

/-- The program returns, and the events go on. -/
theorem ret {a : α} (hstable : Stable effect E (Q a)) (h : ∀ s, P s → Q a s) :
    Ends M effect E P (.ret a) Q := by
  intro s es b s' hes hs hrun
  have hQ : Q a s := h s hs
  clear h hs
  generalize hp : (Program.ret a : Program Op Res α) = p at hrun
  induction hrun with
  | ret =>
    cases hp
    exact hQ
  | op => cases hp
  | @event p s s' e es b hrun ih =>
    refine ih (fun e' he' => hes e' (List.mem_cons_of_mem _ he')) ?_ hp
    exact hstable e (hes e List.mem_cons_self) s hQ

/-- The program performs an operation, at a time when `P` still holds. -/
theorem op {o : Op} {k : Res o → Program Op Res α} {I : Res o → σ → Prop}
    (hstable : Stable effect E P)
    (hact : ∀ s x r s', P s → M.act s o x = some (r, s') → I r s')
    (hk : ∀ r, Ends M effect E (I r) (k r) Q) : Ends M effect E P (.op o k) Q := by
  intro s es a s' hes hs hrun
  generalize hp : (Program.op o k : Program Op Res α) = p at hrun
  induction hrun with
  | ret => cases hp
  | @op o' k' x r s s₁ s' es a hst hrest ih =>
    cases hp
    exact hk r s₁ es a s' hes (hact s x r s₁ hs hst) hrest
  | @event p s s' e es a hrun ih =>
    refine ih (fun e' he' => hes e' (List.mem_cons_of_mem _ he')) ?_ hp
    exact hstable e (hes e List.mem_cons_self) s hs

/-- One program after the other. -/
theorem bind {p : Program Op Res α} {f : α → Program Op Res β} (hp : Ends M effect E P p Q)
    (hf : ∀ a, Ends M effect E (Q a) (f a) R) : Ends M effect E P (p >>= f) R := by
  intro s es b s' hes hs hrun
  obtain ⟨a, s₁, es₁, es₂, rfl, h₁, h₂⟩ := hrun.of_bind
  have hes₁ : ∀ e ∈ es₁, E e := fun e he => hes e (List.mem_append_left _ he)
  have hes₂ : ∀ e ∈ es₂, E e := fun e he => hes e (List.mem_append_right _ he)
  exact hf a s₁ es₂ b s' hes₂ (hp s es₁ a s₁ hes₁ hs h₁) h₂

/-- What holds throughout. -/
theorem and {p : Program Op Res α} (h : Ends M effect E P p Q) (h' : Ends M effect E P' p Q') :
    Ends M effect E (fun s => P s ∧ P' s) p fun a s => Q a s ∧ Q' a s := by
  intro s es a s' hes hs hrun
  exact ⟨h s es a s' hes hs.1 hrun, h' s es a s' hes hs.2 hrun⟩

/-- **Invariant rule.** Every operation of the program keeps `P`, and so do the events. -/
theorem invariant {p : Program Op Res α} {F : Op → Prop} (hp : All F p)
    (hstable : Stable effect E P)
    (hact : ∀ {s o x r s'}, F o → M.act s o x = some (r, s') → P s → P s') :
    Ends M effect E P p fun _ s => P s := by
  induction p with
  | ret a => exact Ends.ret hstable fun _ hs => hs
  | op o k ih =>
    refine Ends.op (I := fun _ s => P s) hstable ?_ fun r => ih r (hp.2 r)
    intro s x r s' hs hst
    exact hact hp.1 hst hs

end Ends

/-! ## Counting operations -/

/-- No path of the program performs more than `n` operations with `F`. -/
def AtMost (F : Op → Bool) : Program Op Res α → Nat → Prop
  | .ret _, _ => True
  | .op o k, n => (F o).toNat ≤ n ∧ ∀ r, AtMost F (k r) (n - (F o).toNat)

namespace AtMost

variable {F : Op → Bool} {n m w : Nat}

theorem mono {p : Program Op Res α} (h : AtMost F p n) (hle : n ≤ m) : AtMost F p m := by
  induction p generalizing n m with
  | ret a => trivial
  | op o k ih =>
    obtain ⟨hn, hk⟩ := h
    refine ⟨Nat.le_trans hn hle, fun r => ih r (hk r) ?_⟩
    omega

theorem op {o : Op} {k : Res o → Program Op Res α} (hw : (F o).toNat ≤ w)
    (h : ∀ r, AtMost F (k r) m) : AtMost F (.op o k) (w + m) := by
  refine ⟨?_, fun r => (h r).mono ?_⟩
  · omega
  · omega

theorem bind {p : Program Op Res α} {f : α → Program Op Res β} (hp : AtMost F p n)
    (hf : ∀ a, AtMost F (f a) m) : AtMost F (p >>= f) (n + m) := by
  induction p generalizing n with
  | ret a => exact (hf a).mono (Nat.le_add_left _ _)
  | op o k ih =>
    obtain ⟨hn, hk⟩ := hp
    have h : AtMost F (.op o k >>= f) ((F o).toNat + (n - (F o).toNat + m)) :=
      AtMost.op (Nat.le_refl _) fun r => ih r (hk r)
    exact h.mono (by omega)

theorem map {p : Program Op Res α} (hp : AtMost F p n) (f : α → β) :
    AtMost F (p >>= fun a => .ret (f a)) n :=
  hp.bind (m := 0) fun _ => trivial

end AtMost

end Program

/-! ## Services -/

namespace Service

open Function (update)
open Program (Ends Stable RunsAmid)

variable {σ Op : Type} {Res : Op → Type} {κ ρ ε : Type} {V : Service σ Op Res κ ρ ε}
  {s₀ s s' : σ} {es : List ε} {l : List (κ × ρ)}

theorem Amid.runsAmid {p : Program Op Res ρ} {a : ρ} (h : V.Amid p s es (.ret a) s') :
    RunsAmid V.machine V.effect p s es a s' := by
  generalize hq : (Program.ret a : Program Op Res ρ) = q at h
  induction h with
  | here =>
    rw [← hq]
    exact .ret
  | op hact _ ih => exact .op hact (ih hq)
  | event _ ih => exact .event (ih hq)

/-- **Rule for serial runs.** A property of the results so far and of the state holds after a
serial run, if it holds at first, every event keeps it, and every call does. -/
theorem Serial.rule {E : ε → Prop} {I : List (κ × ρ) → σ → Prop} (hinit : I [] s₀)
    (hevent : ∀ l, Stable V.effect E (I l))
    (hcall : ∀ l k, Ends V.machine V.effect E (I l) (V.body k) fun a s => I (l ++ [(k, a)]) s)
    (h : V.Serial s₀ es l s) (hes : ∀ e ∈ es, E e) : I l s := by
  induction h with
  | nil => exact hinit
  | @event s es l h e ih =>
    have hs := ih fun e' he' => hes e' (List.mem_append_left _ he')
    exact hevent l e (hes e (List.mem_append_right _ List.mem_cons_self)) s hs
  | @call s s' es es' l k a h hc ih =>
    have hs := ih fun e' he' => hes e' (List.mem_append_left _ he')
    exact hcall l k s es' a s' (fun e' he' => hes e' (List.mem_append_right _ he')) hs hc.runsAmid

/-- No call has begun: the calls that have returned are a serial run, in this order. -/
theorem serial_of_idle [DecidableEq σ] {writes : κ → Bool} {p : Pool σ Op Res κ ρ ε}
    (hreads : ∀ k, writes k = false → Program.All V.Reads (V.body k))
    (h : (V.system s₀).ReachableBy (V.Unmixed writes) p)
    (hidle : ∀ i t, p.threads i = some t → t.begun = none) :
    V.Serial s₀ p.events p.returned p.shared := by
  rcases (ordered_of_reachable hreads h).run with hr | ⟨i, ha⟩
  · exact hr.serial
  · obtain ⟨es, es', s, t, n, -, -, ht, hn, -⟩ := ha.amid
    rw [hidle i t ht] at hn
    cases hn

/-- The events of a run meet what is required of its event actions. -/
theorem events_of_reachable [DecidableEq σ] {E : ε → Prop}
    {P : Pool σ Op Res κ ρ ε → V.Action → Prop} (hP : ∀ {p e}, P p (.event e) → E e)
    {p : Pool σ Op Res κ ρ ε} (h : (V.system s₀).ReachableBy P p) : ∀ e ∈ p.events, E e := by
  refine h.invariant (I := fun p => ∀ e ∈ p.events, E e) (fun e he => absurd he List.not_mem_nil) ?_
  intro p a p' _ hI hp hs
  have hstep : V.step p a = some p' := hs
  cases a with
  | invoke k =>
    cases hstep
    exact hI
  | perform i how =>
    simp only [Service.step] at hstep
    split at hstep
    · obtain ⟨q, -, rfl⟩ := Option.map_eq_some_iff.mp hstep
      exact hI
    · cases hstep
  | finish i =>
    simp only [Service.step] at hstep
    split at hstep
    · cases hstep
      exact hI
    · cases hstep
  | event e =>
    cases hstep
    intro e' he'
    rcases List.mem_append.mp he' with he' | he'
    · exact hI e' he'
    · rw [List.mem_singleton.mp he']
      exact hP hp

/-! ## How many operations a call performs -/

/-- What a run has seen of its calls. -/
structure Tally (κ : Type) where
  /-- The code of each call. -/
  call : Nat → Option κ := fun _ => none
  /-- How many operations of a kind it has performed. -/
  performed : Nat → Nat := fun _ => 0

/-- The operation that a thread performs next. -/
def Thread.next? (t : Thread Op Res κ ρ) : Option Op :=
  match t.code with
  | .op o _ => some o
  | .ret _ => none

def noteCall (V : Service σ Op Res κ ρ ε) (F : Op → Bool) (p : Pool σ Op Res κ ρ ε) (a : V.Action)
    (r : Tally κ) : Tally κ :=
  match a with
  | .invoke k =>
    { r with call := update r.call p.next (some k), performed := update r.performed p.next 0 }
  | .perform i _ =>
    let cost := (((p.threads i).bind Thread.next?).any F).toNat
    { r with performed := update r.performed i (r.performed i + cost) }
  | _ => r

/-- The service with a count of the operations with `F`. -/
def counting [DecidableEq σ] (V : Service σ Op Res κ ρ ε) (F : Op → Bool) (s₀ : σ) :
    Transition.System (Pool σ Op Res κ ρ ε × Tally κ) V.Action :=
  (V.system s₀).recording {} (noteCall V F)

/-- What a call has performed and what is left of it stay below the bound for its code. -/
structure Counted (V : Service σ Op Res κ ρ ε) (F : Op → Bool) (bound : κ → Nat)
    (p : Pool σ Op Res κ ρ ε) (r : Tally κ) : Prop where
  le : ∀ i k, r.call i = some k → r.performed i ≤ bound k
  left : ∀ i t, p.threads i = some t → r.call i = some t.call ∧
    Program.AtMost F t.code (bound t.call - r.performed i)

theorem Counted.step [DecidableEq σ] {F : Op → Bool} {bound : κ → Nat} {p p' : Pool σ Op Res κ ρ ε}
    {r : Tally κ} {a : V.Action} (hbody : ∀ k, Program.AtMost F (V.body k) (bound k))
    (h : Counted V F bound p r) (hs : V.step p a = some p') :
    Counted V F bound p' (noteCall V F p a r) := by
  cases a with
  | invoke k =>
    cases hs
    refine ⟨fun i k' hi => ?_, fun i t ht => ?_⟩
    · have hi : update r.call p.next (some k) i = some k' := hi
      show update r.performed p.next 0 i ≤ bound k'
      by_cases hne : i = p.next
      · rw [hne, Function.update_self]
        exact Nat.zero_le _
      · rw [Function.update_of_ne hne] at hi ⊢
        exact h.le i k' hi
    · have ht : update p.threads p.next (some ⟨k, V.body k, none⟩) i = some t := ht
      show update r.call p.next (some k) i = some t.call ∧
        Program.AtMost F t.code (bound t.call - update r.performed p.next 0 i)
      by_cases hne : i = p.next
      · subst hne
        rw [Function.update_self] at ht ⊢
        cases ht
        rw [Function.update_self]
        exact ⟨rfl, hbody k⟩
      · rw [Function.update_of_ne hne] at ht ⊢
        rw [Function.update_of_ne hne]
        exact h.left i t ht
  | perform i how =>
    simp only [Service.step] at hs
    split at hs
    · next k o f b hti =>
      obtain ⟨⟨res, s'⟩, -, rfl⟩ := Option.map_eq_some_iff.mp hs
      have hcost : (((p.threads i).bind Thread.next?).any F).toNat = (F o).toNat := by
        rw [hti]
        rfl
      obtain ⟨hcall, hcode⟩ := h.left i _ hti
      obtain ⟨hle, hrest⟩ := hcode
      have hperf := h.le i k hcall
      have hle : (F o).toNat ≤ bound k - r.performed i := hle
      refine ⟨fun j k' hj => ?_, fun j t ht => ?_⟩
      · show update r.performed i (r.performed i + _) j ≤ bound k'
        by_cases hne : j = i
        · subst hne
          have hk : k' = k := Option.some.inj (hj.symm.trans hcall)
          rw [Function.update_self, hcost, hk]
          omega
        · rw [Function.update_of_ne hne]
          exact h.le j k' hj
      · have ht : update p.threads i (some ⟨k, f res, some (b.getD p.epoch)⟩) j = some t := ht
        show r.call j = some t.call ∧
          Program.AtMost F t.code (bound t.call - update r.performed i (r.performed i + _) j)
        by_cases hne : j = i
        · subst hne
          rw [Function.update_self] at ht ⊢
          cases ht
          refine ⟨hcall, ?_⟩
          rw [hcost]
          refine (hrest res).mono ?_
          show bound k - r.performed j - (F o).toNat ≤ bound k - (r.performed j + (F o).toNat)
          omega
        · rw [Function.update_of_ne hne] at ht ⊢
          exact h.left j t ht
    · cases hs
  | finish i =>
    simp only [Service.step] at hs
    split at hs
    · cases hs
      refine ⟨h.le, fun j t ht => ?_⟩
      have ht : update p.threads i none j = some t := ht
      by_cases hne : j = i
      · subst hne
        rw [Function.update_self] at ht
        cases ht
      · rw [Function.update_of_ne hne] at ht
        exact h.left j t ht
    · cases hs
  | event e =>
    cases hs
    exact ⟨h.le, h.left⟩

/-- **A call performs no more operations of a kind than its code has on any one path**, however
it is interleaved with others. -/
theorem counted_of_reachable [DecidableEq σ] {F : Op → Bool} {bound : κ → Nat}
    (hbody : ∀ k, Program.AtMost F (V.body k) (bound k)) {q : Pool σ Op Res κ ρ ε × Tally κ}
    (h : (V.counting F s₀).Reachable q) : Counted V F bound q.1 q.2 := by
  have hinit : Counted V F bound { shared := s₀ } ({} : Tally κ) := by
    refine ⟨fun i k hi => ?_, fun i t ht => ?_⟩
    · cases hi
    · cases ht
  refine h.invariant (I := fun q => Counted V F bound q.1 q.2) hinit ?_
  intro q a q' _ hI _ hs
  rw [hs.2]
  exact hI.step hbody hs.1

/-- A call that has not returned can go on, if every operation can. -/
theorem goes_on [DecidableEq σ] (hact : ∀ s o, ∃ x, (V.machine.act s o x).isSome = true)
    {p : Pool σ Op Res κ ρ ε} {i : Nat} {t : Thread Op Res κ ρ} (ht : p.threads i = some t) :
    ∃ a, (a = .finish i ∨ ∃ how, a = .perform i how) ∧ (V.step p a).isSome = true := by
  obtain ⟨k, code, begun⟩ := t
  cases code with
  | ret a =>
    refine ⟨.finish i, .inl rfl, ?_⟩
    simp only [Service.step, ht, Option.isSome_some]
  | op o f =>
    refine ⟨.perform i fun o' => (hact p.shared o').choose, .inr ⟨_, rfl⟩, ?_⟩
    simp only [Service.step, ht, Option.isSome_map]
    exact (hact p.shared o).choose_spec

end Service

end EasyTierMac
