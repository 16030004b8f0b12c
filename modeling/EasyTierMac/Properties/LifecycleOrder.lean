import EasyTierMac.Supervisor.DeliveryView

/-!
# Lifecycle events arrive in lifecycle order

A core transition is made under the state lock and its line is written later, by
the command loop that started or stopped the core, or by the monitor that saw it
die. Only the writer mutex orders these threads, so a core that dies before its
`start` has replied is reported the other way round (`exited_before_started`). The
stream of a connection follows the transitions as long as none is made while an
earlier one is still on its way to that stream.
-/

namespace EasyTierMac.Supervisor

variable {env : Env} {s s' : Sys} {d : ConnId}

/-! ## The step condition -/

/-- The step makes a transition while an earlier one is on its way to the stream of
connection `d`: its thread or a monitor still has to write the line. -/
def overtakes (d : ConnId) (s : Sys) (a : Action) : Bool :=
  match s.nextTransition a with
  | none => false
  | some k => owesBefore k (s.conns d).pc.debt ||
      (List.range s.nGen).any fun g => owesBefore k ((s.monitors g).pc.debt d g)

/-- Transitions wait until the earlier ones are on the stream of connection `d`. -/
def ReportsFirst (d : ConnId) (s : Sys) (a : Action) : Prop := overtakes d s a = false

instance (d : ConnId) : ∀ s a, Decidable (ReportsFirst d s a) :=
  fun _ _ => inferInstanceAs (Decidable (_ = _))

theorem ReportsFirst.label (hr : (supervisor env).Reachable s) {a : Action}
    (h : ReportsFirst d s a) {b : Delivery.Act (Option Gen) Nat} (hl : DeliveryLabel s a b) :
    Delivery.Prompt (s.deliveryView d) b := by
  intro k hk i j hj
  unfold ReportsFirst overtakes at h
  rw [hl k hk] at h
  simp only [Bool.or_eq_false_iff, List.any_eq_false, List.mem_range, Bool.not_eq_true] at h
  obtain ⟨hown, hmon⟩ := h
  cases i with
  | none => exact le_of_owesBefore hown hj
  | some g =>
    by_cases hg : g < s.nGen
    · exact le_of_owesBefore (hmon g hg) hj
    · -- there is no monitor yet
      have hab : (s.monitors g).pc = .absent := by
        by_contra hne
        exact hg (lt_nGen_of_monitor hr hne)
      have hdebt : ((s.monitors g).pc.debt d g).about = some j := hj
      rw [hab] at hdebt
      cases hdebt

/-! ## The order of the lines -/

/-- The lines that report a transition stand in the order of the transitions. -/
def LifecycleOrder (out : List Line) : Prop :=
  out.Pairwise fun l m => ∀ j, l.transition = some j → ∀ k, m.transition = some k → j ≤ k

/-- Line `i` of a stream is a `core_started` for generation `n`. -/
def StartedAt (out : List Line) (n : Gen) (i : Nat) : Prop :=
  ∃ pid port, out[i]? = some ⟨.coreStarted pid port, some (.running n)⟩

/-- Line `i` of a stream is the `core_exited` of generation `n`. -/
def ExitedAt (out : List Line) (n : Gen) (i : Nat) : Prop :=
  ∃ code signal, out[i]? = some ⟨.coreExited code signal, some (.stopped n)⟩

/-- In an ordered stream, a line about an earlier transition stands earlier. -/
theorem LifecycleOrder.index_lt {out : List Line} (h : LifecycleOrder out) {i j m n : Nat}
    {l l' : Line} (hi : out[i]? = some l) (hj : out[j]? = some l') (hl : l.transition = some m)
    (hl' : l'.transition = some n) (hmn : m < n) : i < j :=
  Delivery.index_lt_of_sorted (List.pairwise_filterMap.mpr h) hi hj hl hl' hmn

/-- **Lifecycle order.** The lines `core_started`, `core_stopped` and `core_exited` on
the stream of connection `d` stand in the order of the transitions they report, as
long as no transition is made while an earlier one is on its way there. In
particular every `core_started` of a generation comes before its `core_exited`, and
this one before every `core_started` of the next generation. -/
theorem lifecycle_in_order (h : (supervisor env).ReachableBy (ReportsFirst d) s) :
    LifecycleOrder (s.conns d).out ∧ ∀ n i j,
      (StartedAt (s.conns d).out n i → ExitedAt (s.conns d).out n j → i < j) ∧
      (ExitedAt (s.conns d).out n i → StartedAt (s.conns d).out (n + 1) j → i < j) := by
  have hview := (delivery env d).reachableBy (fun hr hp hl => hp.label hr.reachable hl) h
  have hord : LifecycleOrder (s.conns d).out :=
    List.pairwise_filterMap.mp (Delivery.sorted_of_reachable hview)
  refine ⟨hord, fun n i j => ⟨?_, ?_⟩⟩
  · rintro ⟨pid, port, hi⟩ ⟨code, signal, hj⟩
    exact hord.index_lt hi hj rfl rfl (Nat.lt_succ_self _)
  · rintro ⟨code, signal, hi⟩ ⟨pid, port, hj⟩
    exact hord.index_lt hi hj rfl rfl (Nat.lt_succ_self _)

namespace Client

/-- The core dies, and its monitor reports it, while `start` is still running the up
hook. -/
def crashInStart : List Action :=
  [boot, connect 0 helloText, own 0, send 0 (line startText),
    [.conn 0 (.spawn (.child 7 5000)), .conn 0 .done], perish 0,
    [.monitor 0 .done, .monitor 0 .done, .conn 0 (.stat .absent), .conn 0 .done]].flatten

/-- The core dies after `start` has replied, is reported, and is started again. -/
def crashAndRestart : List Action :=
  [boot, connect 0 helloText, own 0, start 0 7, perish 0, [.monitor 0 .done, .monitor 0 .done],
    start 0 8].flatten

end Client

/-- `core_exited` of a generation comes before its `core_started`. -/
theorem exited_before_started : ∃ s, (supervisor Client.env).Reachable s ∧
    ExitedAt (s.conns 0).out 0 1 ∧ StartedAt (s.conns 0).out 0 2 ∧
    ¬ LifecycleOrder (s.conns 0).out := by
  obtain ⟨s, hs, hp⟩ := exists_reachableBy Client.env (fun _ _ => True) Client.crashInStart
    (fun s => decide (
      (s.conns 0).out[1]? = some (⟨.coreExited (some 0) none, some (.stopped 0)⟩ : Line) ∧
      (s.conns 0).out[2]? = some (⟨.coreStarted 7 5000, some (.running 0)⟩ : Line)))
    (by decide +kernel)
  obtain ⟨h1, h2⟩ := of_decide_eq_true hp
  refine ⟨s, hs, ⟨_, _, h1⟩, ⟨_, _, h2⟩, fun hord => ?_⟩
  have hlt : 2 < 1 := hord.index_lt h2 h1 rfl rfl (Nat.lt_succ_self _)
  omega

theorem lifecycle_in_order_restart :
    ∃ s, (supervisor Client.env).ReachableBy (ReportsFirst 0) s ∧
      ExitedAt (s.conns 0).out 0 2 ∧ StartedAt (s.conns 0).out 1 3 ∧
      LifecycleOrder (s.conns 0).out := by
  obtain ⟨s, hs, hp⟩ := exists_reachableBy Client.env (ReportsFirst 0) Client.crashAndRestart
    (fun s => decide (
      (s.conns 0).out[2]? = some (⟨.coreExited (some 0) none, some (.stopped 0)⟩ : Line) ∧
      (s.conns 0).out[3]? = some (⟨.coreStarted 8 5000, some (.running 1)⟩ : Line)))
    (by decide +kernel)
  obtain ⟨h2, h3⟩ := of_decide_eq_true hp
  exact ⟨s, hs, ⟨_, _, h2⟩, ⟨_, _, h3⟩, (lifecycle_in_order hs).1⟩

end EasyTierMac.Supervisor
