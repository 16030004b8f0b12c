import EasyTierMac.Lifecycle.HookOrder
import EasyTierMac.Supervisor.DeliveryView

/-!
# Hooks fire in lifecycle order

`start` fires the up hook after it has released the lock and created the monitor, and
the down hook is fired by the caller of `stop` or by the monitor, after the core is
marked stopped and, for a crash, after the line to the owner has been written. A core
that dies before its `start` has come to the up hook, or that is started again before
the down hook of the previous one, has its hooks fired the other way round
(`down_before_up`). The calls of `run_hook` follow the transitions, and their last one
is about the latest transition, as long as no transition is made while the hook of an
earlier one is still to be fired.
-/

namespace EasyTierMac.Supervisor

open Lifecycle (HookCall.transition)

variable {env : Env} {s s' : Sys}

/-! ## The hook calls as a stream -/

/-- A step that makes a transition in the view makes it in the supervisor, and no hook
gets lost. -/
def HookLabel (s : Sys) (a : Action) (b : Delivery.Act (ConnId ⊕ Gen) Nat) : Prop :=
  (∀ k, b.Passes k → s.nextTransition a = some k) ∧ Delivery.Kept s.lifeView.hookView b

theorem nextTransition_of_ne (hr : (supervisor env).Reachable s) {a : Action}
    (hs : (supervisor env).step s a s') (hne : s'.transitions ≠ s.transitions) :
    s.nextTransition a = some s'.transitions := by
  rcases (delivery env 0).step hr hs with heq | ⟨b, hl, hst⟩
  · exact absurd (congrArg Delivery.State.cur heq) hne
  · exact hl _ (hst.passes_of_cur_ne hne)

/-- **The hook calls of the supervisor refine ordered delivery.** -/
def hooksInOrder (env : Env) :
    Transition.Refinement (supervisor env) (Delivery.machine (ConnId ⊕ Gen) 0) where
  view s := s.lifeView.hookView
  label := HookLabel
  init := Lifecycle.hookOrder.init
  step {s s' a} hr hs := by
    rcases (lifecycle env).step hr hs with heq | ⟨b, -, hst⟩
    · exact .inl (congrArg Lifecycle.State.hookView heq)
    rcases Lifecycle.hookOrder.step ((lifecycle env).reachable hr) hst with heq | ⟨b', hk, hst'⟩
    · exact .inl heq
    refine .inr ⟨b', ⟨fun k hp => ?_, hk⟩, hst'⟩
    obtain ⟨hcur, hlt⟩ := hst'.cur_of_passes hp
    have hcur : s'.transitions = k := hcur
    have hlt : s.transitions < k := hlt
    rw [← hcur] at hlt ⊢
    exact nextTransition_of_ne hr hs (Nat.ne_of_gt hlt)

/-! ## The step condition -/

/-- Some thread still has to fire the hook of a transition that `p` selects: the thread
of a connection, in `start` or `stop`, or a monitor. -/
def Sys.hookAhead (s : Sys) (p : Delivery.Debt Nat → Bool) : Bool :=
  ((List.range s.nConns).any fun c => p (s.conns c).pc.call.debt) ||
    (List.range s.nGen).any fun g => p ((s.monitors g).pc.phase.debt g)

/-- The step makes a core transition while the hook of an earlier one is still to be
fired. -/
def outrunsHook (s : Sys) (a : Action) : Bool :=
  (s.nextTransition a).any fun k => s.hookAhead (owesBefore k)

/-- Transitions wait until the hooks of the earlier ones have been fired. -/
def HooksFirst (s : Sys) (a : Action) : Prop := outrunsHook s a = false

instance : ∀ s a, Decidable (HooksFirst s a) := fun _ _ => inferInstanceAs (Decidable (_ = _))

/-- The threads that have a hook to fire are those of connections that were accepted
and of generations that were spawned. -/
theorem hookAhead_of_debt (hr : (supervisor env).Reachable s) {p : Delivery.Debt Nat → Bool}
    (hclear : p .clear = false) {i : ConnId ⊕ Gen} (hi : p (s.lifeView.hookView.debt i) = true) :
    s.hookAhead p = true := by
  unfold Sys.hookAhead
  rw [Bool.or_eq_true, List.any_eq_true, List.any_eq_true]
  cases i with
  | inl c =>
    refine .inl ⟨c, List.mem_range.mpr ?_, hi⟩
    by_contra hle
    have hpc := (Accepted.of_reachable hr).closed c (Nat.le_of_not_lt hle)
    have hi : p (s.conns c).pc.call.debt = true := hi
    rw [hpc] at hi
    exact absurd (hclear.symm.trans hi) Bool.false_ne_true
  | inr g =>
    refine .inr ⟨g, List.mem_range.mpr (lt_nGen_of_monitor hr fun hpc => ?_), hi⟩
    have hi : p ((s.monitors g).pc.phase.debt g) = true := hi
    rw [hpc] at hi
    exact absurd (hclear.symm.trans hi) Bool.false_ne_true

theorem HooksFirst.label (hr : (supervisor env).Reachable s) {a : Action} (h : HooksFirst s a)
    {b : Delivery.Act (ConnId ⊕ Gen) Nat} (hl : HookLabel s a b) :
    Delivery.Prompt s.lifeView.hookView b ∧ Delivery.Kept s.lifeView.hookView b := by
  refine ⟨fun k hk i j hj => ?_, hl.2⟩
  unfold HooksFirst outrunsHook at h
  rw [hl.1 k hk] at h
  by_contra hlt
  have hahead : s.hookAhead (owesBefore k) = true := by
    refine hookAhead_of_debt hr rfl (i := i) ?_
    unfold owesBefore
    rw [hj]
    exact decide_eq_true (Nat.lt_of_not_le hlt)
  exact absurd (h.symm.trans hahead) Bool.false_ne_true

/-! ## The order of the calls -/

/-- Call `i` of `run_hook` is the up hook of generation `n`. -/
def UpAt (calls : List HookCall) (n : Gen) (i : Nat) : Prop :=
  calls[i]? = some ⟨.up, none, some n⟩

/-- Call `i` of `run_hook` is a down hook for the end of generation `n`. -/
def DownAt (calls : List HookCall) (n : Gen) (i : Nat) : Prop :=
  ∃ r, calls[i]? = some ⟨.down, some r, some n⟩

/-- The up hook of a generation comes before its down hooks, and these before the up
hook of the next one. -/
def HookOrder (calls : List HookCall) : Prop :=
  ∀ n i j, (UpAt calls n i → DownAt calls n j → i < j) ∧
    (DownAt calls n i → UpAt calls (n + 1) j → i < j)

/-- The last hook call that mirrors a transition is about the latest one: it is the up
hook of the core that runs, or a down hook of the one that ran last. -/
def LastMirrors (s : Sys) : Prop :=
  ∃ x, (s.hookCalls.filter fun x => x.gen.isSome).getLast? = some x ∧
    x.gen = some (s.nGen - 1) ∧
    match s.core with
    | .running _ => x.event = .up
    | .stopped => x.event = .down

/-- The calls that mirror no transition do not count. -/
theorem filterMap_transition (calls : List HookCall) :
    (calls.filter fun x => x.gen.isSome).filterMap HookCall.transition =
      calls.filterMap HookCall.transition := by
  rw [List.filterMap_filter]
  refine List.filterMap_congr fun x _ => ?_
  obtain ⟨ev, r, g⟩ := x
  cases g <;> cases ev <;> rfl

theorem HookOrder.of_sorted {calls : List HookCall}
    (h : (calls.filterMap HookCall.transition).Pairwise (· ≤ ·)) : HookOrder calls := by
  intro n i j
  constructor
  · intro hi hj
    obtain ⟨r, hj⟩ := hj
    exact Delivery.index_lt_of_sorted h hi hj rfl rfl (Nat.lt_succ_self _)
  · intro hi hj
    obtain ⟨r, hi⟩ := hi
    exact Delivery.index_lt_of_sorted h hi hj rfl rfl (Nat.lt_succ_self _)

/-- The last transition mirrored is the one of the last call that mirrors any. -/
theorem getLast?_of_transition {calls : List HookCall} {k : Nat}
    (h : (calls.filterMap HookCall.transition).getLast? = some k) :
    ∃ x, (calls.filter fun x => x.gen.isSome).getLast? = some x ∧
      HookCall.transition x = some k := by
  rw [← filterMap_transition] at h
  rcases List.eq_nil_or_concat (calls.filter fun x => x.gen.isSome) with hnil | ⟨l, x, hl⟩
  · rw [hnil] at h
    cases h
  · rw [List.concat_eq_append] at hl
    have hmem : x ∈ calls.filter fun x => x.gen.isSome := by
      rw [hl]
      exact List.mem_append_right _ List.mem_cons_self
    have hx : x.gen.isSome = true := (List.mem_filter.mp hmem).2
    obtain ⟨ev, r, g⟩ := x
    obtain ⟨g, rfl⟩ := Option.isSome_iff_exists.mp hx
    refine ⟨_, by rw [hl]; exact List.getLast?_concat, ?_⟩
    rw [hl, List.filterMap_append] at h
    cases ev <;> simpa [HookCall.transition] using h

/-- The number of a transition tells its kind and its generation. -/
theorem number_inj {g n : Nat} :
    (2 * g + 1 = 2 * n - 1 → g = n - 1) ∧ 2 * g + 1 ≠ 2 * n ∧
      (2 * g + 2 = 2 * n → g = n - 1) ∧ 2 * g + 2 ≠ 2 * n - 1 := by
  omega

theorem LastMirrors.of_transition {x : HookCall}
    (hlast : (s.hookCalls.filter fun x => x.gen.isSome).getLast? = some x)
    (hx : HookCall.transition x = some s.transitions) : LastMirrors s := by
  refine ⟨x, hlast, ?_⟩
  obtain ⟨ev, r, g⟩ := x
  unfold Sys.transitions at hx
  cases g with
  | none => cases ev <;> cases hx
  | some g =>
    obtain ⟨hup, hup', hdown, hdown'⟩ := number_inj (g := g) (n := s.nGen)
    cases ev with
    | up =>
      injection hx with hx
      cases hcore : s.core with
      | running =>
        rw [hcore] at hx
        exact ⟨congrArg some (hup hx), rfl⟩
      | stopped =>
        rw [hcore] at hx
        exact absurd hx hup'
    | down =>
      injection hx with hx
      cases hcore : s.core with
      | running =>
        rw [hcore] at hx
        exact absurd hx hdown'
      | stopped =>
        rw [hcore] at hx
        exact ⟨congrArg some (hdown hx), rfl⟩

/-- **Hooks in lifecycle order.** As long as no transition is made while the hook of an
earlier one is still to be fired, the calls of `run_hook` follow the lifecycle, and the
last one is about the latest transition unless the hook of that one is still ahead. -/
theorem hooks_in_order (h : (supervisor env).ReachableBy HooksFirst s) :
    HookOrder s.hookCalls ∧ (s.nGen = 0 ∨ LastMirrors s ∨
      s.hookAhead (fun x => x.about = some s.transitions)) := by
  have hview := (hooksInOrder env).reachableBy
    (Q := fun v b => Delivery.Prompt v b ∧ Delivery.Kept v b)
    (fun hr hp hl => hp.label hr.reachable hl) h
  have hout : s.lifeView.hookView.out = s.hookCalls.filterMap HookCall.transition :=
    filterMap_transition s.hookCalls
  constructor
  · have hsorted := Delivery.sorted_of_reachable (hview.mono fun _ _ hp => hp.1)
    rw [show ((hooksInOrder env).view s).out = _ from hout] at hsorted
    exact .of_sorted hsorted
  by_cases hn : s.nGen = 0
  · exact .inl hn
  refine .inr ?_
  rcases Delivery.settled_of_reachable hview with hz | hlast | ⟨i, hi⟩
  · -- some core was started, so some transition was made
    have hz : s.transitions = 0 := hz
    unfold Sys.transitions at hz
    split at hz <;> omega
  · rw [show ((hooksInOrder env).view s).out = _ from hout] at hlast
    obtain ⟨x, hx, hk⟩ := getLast?_of_transition hlast
    exact .inl (.of_transition hx hk)
  · exact .inr (hookAhead_of_debt h.reachable rfl (decide_eq_true hi))

namespace Client

/-- The core dies, and its monitor fires the down hook, before `start` has come to the
up hook. -/
def crashBeforeUp : List Action :=
  [boot, connect 0 helloText, own 0, send 0 (line startText),
    [.conn 0 (.spawn (.child 7 5000)), .conn 0 .done], perish 0,
    [.monitor 0 .done, .monitor 0 .done, .monitor 0 (.stat .absent), .conn 0 (.stat .absent)]].flatten

/-- The core dies and is started again before its monitor has come to the down hook. -/
def restartBeforeDown : List Action :=
  [boot, connect 0 helloText, own 0, start 0 7, perish 0, [.monitor 0 .done, .monitor 0 .done],
    start 0 8, [.monitor 0 (.stat .absent)]].flatten

/-- The core dies, its hook is fired, and it is started again. -/
def restartAfterDown : List Action :=
  [boot, connect 0 helloText, own 0, start 0 7, perish 0,
    [.monitor 0 .done, .monitor 0 .done, .monitor 0 (.stat .absent), .monitor 0 .done,
      .monitor 0 .failed], start 0 8].flatten

end Client

/-- The down hook of a generation comes before its up hook; and a restart leaves the
down hook of the old core as the last call while the new one runs. -/
theorem down_before_up :
    (∃ s, (supervisor Client.env).Reachable s ∧ DownAt s.hookCalls 0 0 ∧ UpAt s.hookCalls 0 1) ∧
    ∃ s run, (supervisor Client.env).Reachable s ∧ s.core = .running run ∧
      s.hookCalls.getLast? = some ⟨.down, some .coreExited, some 0⟩ ∧ ¬ HookOrder s.hookCalls := by
  constructor
  · obtain ⟨s, hs, hp⟩ := exists_reachableBy Client.env (fun _ _ => True) Client.crashBeforeUp
      (fun s => decide (s.hookCalls =
        [⟨.down, some .coreExited, some 0⟩, ⟨.up, none, some 0⟩])) (by decide +kernel)
    have hcalls := of_decide_eq_true hp
    exact ⟨s, hs, ⟨.coreExited, by rw [hcalls]; rfl⟩, by rw [UpAt, hcalls]; rfl⟩
  · obtain ⟨s, hs, hp⟩ := exists_reachableBy Client.env (fun _ _ => True) Client.restartBeforeDown
      (fun s => decide (s.core = .running ⟨8, 5000, false⟩ ∧ s.hookCalls =
        [⟨.up, none, some 0⟩, ⟨.up, none, some 1⟩, ⟨.down, some .coreExited, some 0⟩]))
      (by decide +kernel)
    obtain ⟨hcore, hcalls⟩ := of_decide_eq_true hp
    refine ⟨s, _, hs, hcore, by rw [hcalls]; rfl, fun hord => ?_⟩
    have hlt : 2 < 1 := (hord 0 2 1).2 ⟨.coreExited, by rw [hcalls]; rfl⟩ (by rw [UpAt, hcalls]; rfl)
    omega

theorem hooks_in_order_restart :
    ∃ s, (supervisor Client.env).ReachableBy HooksFirst s ∧ s.hookCalls =
        [⟨.up, none, some 0⟩, ⟨.down, some .coreExited, some 0⟩, ⟨.up, none, some 1⟩] ∧
      HookOrder s.hookCalls := by
  obtain ⟨s, hs, hp⟩ := exists_reachableBy Client.env HooksFirst Client.restartAfterDown
    (fun s => decide (s.hookCalls =
      [⟨.up, none, some 0⟩, ⟨.down, some .coreExited, some 0⟩, ⟨.up, none, some 1⟩]))
    (by decide +kernel)
  exact ⟨s, hs, of_decide_eq_true hp, (hooks_in_order hs).1⟩

end EasyTierMac.Supervisor
