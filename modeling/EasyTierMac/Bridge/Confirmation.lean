import Mathlib.Data.List.Induction

/-!
# Takeovers and their confirmation

The order in which a client may connect, say hello, and be asked to take over. `Phase`
is an automaton over these marks: a `busy` outcome pauses the client until somebody calls
for a takeover, the next attempt then takes over, and it does so once.

A record that the automaton accepts has the shape that the phases stand for (`Shape`): a
hello that takes over belongs to the attempt after a `busy` outcome, with a call in
between.
-/

namespace EasyTierMac.Bridge

/-- What is recorded of a run of the client. -/
inductive Mark
  /-- A connect attempt begins. -/
  | attempt (takeover : Bool)
  | hello (takeover : Bool)
  /-- The attempt ends with `busy`. -/
  | busy
  /-- Somebody calls for a takeover. -/
  | request
  deriving DecidableEq, Repr

inductive Phase
  /-- No `busy` outcome waits for a confirmation. -/
  | free
  /-- Paused on `busy`, and nobody has called since. -/
  | paused
  | confirmed
  /-- The attempt after a confirmation, before its hello. -/
  | taking
  deriving DecidableEq, Repr

namespace Phase

/-- The phase after a mark; `none` where the mark is out of order. -/
def next : Phase → Mark → Option Phase
  | .free, .attempt false | .free, .hello false | .free, .request => some .free
  | .free, .busy => some .paused
  | .paused, .request | .confirmed, .request => some .confirmed
  | .confirmed, .attempt true | .taking, .request => some .taking
  | .taking, .hello true | .taking, .attempt false => some .free
  | _, _ => none

/-- The phase after a record. -/
def after (record : List Mark) : Option Phase := record.foldlM next .free

theorem after_append (r₁ r₂ : List Mark) :
    after (r₁ ++ r₂) = (after r₁).bind fun p => r₂.foldlM next p := List.foldlM_append

theorem after_concat (r : List Mark) (m : Mark) : after (r ++ [m]) = (after r).bind (·.next m) := by
  rw [after_append]
  cases after r with
  | none => rfl
  | some p =>
    show p.next m >>= pure = p.next m
    exact bind_pure _

/-- A record is accepted only if each part at its front is. -/
theorem after_cons {r₁ r₂ : List Mark} {m : Mark} {p : Phase} (h : after (r₁ ++ m :: r₂) = some p) :
    ∃ q q', after r₁ = some q ∧ q.next m = some q' ∧ r₂.foldlM next q' = some p := by
  rw [after_append] at h
  obtain ⟨q, hq, h⟩ := Option.bind_eq_some_iff.mp h
  obtain ⟨q', hq', h⟩ := Option.bind_eq_some_iff.mp h
  exact ⟨q, q', hq, hq', h⟩

/-! ## The shape of a record -/

/-- All marks are calls. -/
def Calls (marks : List Mark) : Prop := ∀ m ∈ marks, m = .request

theorem Calls.concat {marks : List Mark} (h : Calls marks) : Calls (marks ++ [.request]) := by
  intro m hm
  rcases List.mem_append.mp hm with hm | hm
  · exact h m hm
  · exact List.mem_singleton.mp hm

/-- What a phase says about the record. -/
def Shape : Phase → List Mark → Prop
  | .free, _ => True
  | .paused, r => ∃ old, r = old ++ [.busy]
  | .confirmed, r => ∃ old calls, r = old ++ .busy :: calls ∧ Calls calls ∧ .request ∈ calls
  | .taking, r => ∃ old calls late, r = old ++ .busy :: (calls ++ .attempt true :: late) ∧
      Calls calls ∧ .request ∈ calls ∧ Calls late

theorem Shape.next {p p' : Phase} {r : List Mark} {m : Mark} (h : Shape p r)
    (hnext : p.next m = some p') : Shape p' (r ++ [m]) := by
  cases p with
  | free =>
    cases m with
    | request =>
      cases hnext
      trivial
    | busy =>
      cases hnext
      exact ⟨r, rfl⟩
    -- an attempt to take over is not allowed here
    | attempt takeover | hello takeover =>
      cases takeover with
      | true => cases hnext
      | false =>
        cases hnext
        trivial
  | paused =>
    cases m with
    | request =>
      cases hnext
      obtain ⟨old, rfl⟩ := h
      exact ⟨old, [.request], by simp, by simp [Calls], by simp⟩
    | _ => cases hnext
  | confirmed =>
    obtain ⟨old, calls, rfl, hcalls, hmem⟩ := h
    cases m with
    | request =>
      cases hnext
      exact ⟨old, calls ++ [.request], by simp, hcalls.concat, by simp⟩
    | attempt takeover =>
      cases takeover with
      | false => cases hnext
      | true =>
        cases hnext
        exact ⟨old, calls, [], by simp, hcalls, hmem, by simp [Calls]⟩
    | _ => cases hnext
  | taking =>
    obtain ⟨old, calls, late, rfl, hcalls, hmem, hlate⟩ := h
    cases m with
    | request =>
      cases hnext
      exact ⟨old, calls, late ++ [.request], by simp, hcalls, hmem, hlate.concat⟩
    | attempt takeover =>
      cases takeover with
      | false =>
        cases hnext
        trivial
      | true => cases hnext
    | hello takeover =>
      cases takeover with
      | false => cases hnext
      | true =>
        cases hnext
        trivial
    | busy => cases hnext

theorem shape {r : List Mark} {p : Phase} (h : after r = some p) : Shape p r := by
  induction r using List.reverseRecOn generalizing p with
  | nil =>
    cases h
    trivial
  | append_singleton r m ih =>
    rw [after_concat] at h
    obtain ⟨q, hq, hnext⟩ := Option.bind_eq_some_iff.mp h
    exact (ih hq).next hnext

/-! ## What an accepted record looks like -/

/-- A hello that takes over belongs to the attempt after a `busy` outcome, and there was a
call between them. -/
theorem hello_confirmed {r pre post : List Mark} {p : Phase} (h : after r = some p)
    (hr : r = pre ++ .hello true :: post) :
    ∃ old calls late, pre = old ++ .busy :: (calls ++ .attempt true :: late) ∧
      Calls calls ∧ .request ∈ calls ∧ Calls late := by
  subst hr
  obtain ⟨q, q', hq, hnext, -⟩ := after_cons h
  cases q with
  | taking => exact shape hq
  | _ => cases hnext

/-- After a `busy` outcome there is no attempt before a call. -/
theorem attempt_confirmed {r pre mid post : List Mark} {p : Phase} {takeover : Bool}
    (h : after r = some p) (hr : r = pre ++ .busy :: (mid ++ .attempt takeover :: post)) :
    .request ∈ mid := by
  subst hr
  obtain ⟨q, q', hq, hnext, hrest⟩ := after_cons h
  have hpaused : q' = .paused := by
    cases q with
    | free =>
      cases hnext
      rfl
    | _ => cases hnext
  subst hpaused
  cases mid with
  | nil => cases hrest
  | cons m mid =>
    cases m with
    | request => exact List.mem_cons_self
    | _ => cases hrest

/-- A call that is not used up yet. -/
def credit : Phase → Nat
  | .confirmed => 1
  | .free | .paused | .taking => 0

theorem credit_next {p p' : Phase} {m : Mark} (h : p.next m = some p') :
    [m].count (.attempt true) + p'.credit ≤ [m].count .request + p.credit := by
  cases p <;> cases m <;> first
    | (cases h; decide)
    | (next takeover => cases takeover <;> first | (cases h; decide) | cases h)
    | cases h

/-- There are no more attempts that take over than calls. -/
theorem count_attempt_le {r : List Mark} {p : Phase} (h : after r = some p) :
    r.count (.attempt true) + p.credit ≤ r.count .request := by
  induction r using List.reverseRecOn generalizing p with
  | nil =>
    cases h
    exact Nat.le_refl 0
  | append_singleton r m ih =>
    rw [after_concat] at h
    obtain ⟨q, hq, hnext⟩ := Option.bind_eq_some_iff.mp h
    have hm := credit_next hnext
    have hr := ih hq
    rw [List.count_append, List.count_append]
    omega

end Phase

end EasyTierMac.Bridge
