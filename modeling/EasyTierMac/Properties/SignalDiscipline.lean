import EasyTierMac.Properties.OneCore

/-!
# Signal discipline

What the monitor of a generation has sent is nothing, SIGTERM, or SIGTERM and at
least `TERM_GRACE` later SIGKILL; and each signal goes to the still unreaped
child of a generation that a `stop` had marked. No assumption on `try_wait`, on
the clock or on the pids the operating system hands out again.
-/

namespace EasyTierMac.Supervisor

open Lifecycle (Escalating Escalation Marking)

variable {env : Env} {s s' : Sys}

/-- The signals sent for generation `g`, in order. -/
def Sys.sent (s : Sys) (g : Gen) : List Signal := s.signals.filter fun x => x.gen = g

/-- Nothing, SIGTERM, or SIGTERM and a late enough SIGKILL, to the child of `g`. -/
inductive Disciplined (s : Sys) (g : Gen) : List Signal → Prop
  | none : Disciplined s g []
  | term (t : Nat) : Disciplined s g [⟨g, (s.children g).pid, .term, t⟩]
  | kill (t t' : Nat) (ht : t + TERM_GRACE ≤ t') :
      Disciplined s g [⟨g, (s.children g).pid, .term, t⟩, ⟨g, (s.children g).pid, .kill, t'⟩]

theorem disciplined_of_reachable (h : (supervisor env).Reachable s) (g : Gen) :
    Disciplined s g (s.sent g) := by
  have hB := base_of_reachable h
  have hE : Escalation g s.now (s.lifeView.mon g) (s.lifeView.sent g) :=
    Escalating.of_reachable ((lifecycle env).reachable h) g
  have hpid : ∀ {p : Lifecycle.Phase}, (s.lifeView.mon g).phase = p → p ≠ .absent →
      (s.lifeView.mon g).pid = (s.children g).pid :=
    fun he hp => hB.monPid g (he ▸ hp)
  have hquiet : (s.lifeView.mon g).phase.quiet → (s.lifeView.mon g).phase ≠ .absent := by
    intro hq he
    rw [he] at hq
    exact hq
  show Disciplined s g (s.lifeView.sent g)
  generalize s.lifeView.sent g = l at hE ⊢
  cases hE with
  | calm => exact .none
  | @arming t _ hph _ =>
    rw [hpid hph (by simp)]
    exact .term t
  | @waiting t d _ _ hph _ =>
    have hne : (s.lifeView.mon g).phase ≠ .absent := by
      rcases hph with hq | ⟨he, -⟩
      · exact hquiet hq
      · simp [he]
    rw [hpid rfl hne]
    exact .term t
  | @killed t t' d _ _ hph ht =>
    rw [hpid rfl (hquiet hph)]
    exact .kill t t' ht

/-- Every signal of a step goes to the unreaped child of a generation that a
`stop` had marked. -/
def HitsOwn (s s' : Sys) : Prop :=
  s'.signals = s.signals ∨ ∃ g sig,
    s'.signals = s.signals ++ [⟨g, (s.children g).pid, sig, s.now⟩] ∧
      (s.children g).life ≠ .reaped ∧ ∃ x ∈ s.stopCalls, x.gen = g

theorem hitsOwn_of_reachable (h : (supervisor env).Reachable s) {a : Action}
    (hs : step env s a = some s') : HitsOwn s s' := by
  rcases (lifecycle env).step h hs with he | ⟨b, -, hst⟩
  · exact .inl (congrArg Lifecycle.State.signals he)
  · exact Lifecycle.signal_target (base_of_reachable h)
      (Marking.of_reachable ((lifecycle env).reachable h)) hst

/-- **Signal discipline and pid-reuse safety.** -/
theorem signal_discipline (h : (supervisor env).Reachable s) :
    (∀ g, Disciplined s g (s.sent g)) ∧ ∀ a s', step env s a = some s' → HitsOwn s s' :=
  ⟨disciplined_of_reachable h, fun _ _ hs => hitsOwn_of_reachable h hs⟩

namespace Client

/-- The monitor of generation 0 sees the stop request, sends SIGTERM, and 5 s later
SIGKILL. -/
def escalate : List Action :=
  [.monitor 0 .done, .monitor 0 .done, .monitor 0 .done, .monitor 0 .done, .tick (secs 5),
    .monitor 0 .done, .monitor 0 .done, .monitor 0 .done, .monitor 0 .done, .monitor 0 .done]

def stubborn : List Action :=
  [boot, connect 0 helloText, own 0, start 0 7, stop 0, escalate].flatten

end Client

theorem signal_discipline_stubborn : ∃ s, (supervisor Client.env).Reachable s ∧
    s.signals = [⟨0, 7, .term, 0⟩, ⟨0, 7, .kill, secs 5⟩] ∧ Disciplined s 0 (s.sent 0) := by
  obtain ⟨s, hs, hp⟩ := exists_reachableBy Client.env (fun _ _ => True) Client.stubborn
    (fun s => s.signals == [⟨0, 7, .term, 0⟩, ⟨0, 7, .kill, secs 5⟩]) (by decide +kernel)
  exact ⟨s, hs, beq_iff_eq.mp hp, (signal_discipline hs).1 0⟩

end EasyTierMac.Supervisor
