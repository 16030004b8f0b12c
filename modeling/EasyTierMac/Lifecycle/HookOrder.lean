import EasyTierMac.Delivery.Order
import EasyTierMac.Lifecycle.Tracking

/-!
# The hook calls of the lifecycle refine ordered delivery

The hooks mirror the transitions of the core, but a hook is fired later than the
transition is made, and by another thread: by the caller of `start` once the monitor
exists, by the caller of `stop` once it sees the core stopped, or by the monitor that
saw the core die. `hookView` counts transitions (generation `g` starts with
`2 * g + 1` and stops with `2 * g + 2`) and keeps who still has to fire which hook.
Every step of the lifecycle is invisible there or a step of `Delivery.machine`
(`hookOrder`), and no hook gets lost (`Delivery.Kept`): a core that was asked to stop
always has a caller of `stop` waiting for it (`Attended`).
-/

namespace EasyTierMac.Lifecycle

open Function (update)
open Delivery (Debt)
open Supervisor (Gen ConnId Running HookReason HookCall)

/-! ## The view -/

/-- The transition a hook call mirrors. -/
def HookCall.transition (x : HookCall) : Option Nat :=
  match x.event, x.gen with
  | .up, some g => some (2 * g + 1)
  | .down, some g => some (2 * g + 2)
  | _, none => none

/-- The hook that a caller of `start` or `stop` is going to fire. -/
def Call.debt : Call → Debt Nat
  | .spawned g | .raising g => .owes (2 * g + 1)
  | .stopping _ g => .waits (2 * g + 2)
  | .lowering _ g => .owes (2 * g + 2)
  | .idle | .torn => .clear

/-- The hook that the monitor of generation `g` is going to fire. -/
def Phase.debt (g : Gen) : Phase → Debt Nat
  | .reporting => .owes (2 * g + 2)
  | _ => .clear

theorem Call.debt_after (r : HookReason) : (Call.after r).debt = .clear := by
  cases r <;> rfl

namespace State

variable (v : State)

/-- The number of the latest core transition. -/
def transitions : Nat :=
  match v.core with
  | .running _ => 2 * v.nGen - 1
  | .stopped => 2 * v.nGen

def hookView : Delivery.State (ConnId ⊕ Gen) Nat where
  cur := v.transitions
  debt
    | .inl c => (v.call c).debt
    | .inr g => (v.mon g).phase.debt g
  out := v.hookCalls.filterMap HookCall.transition

variable {v}

/-! ## The view of each update -/

theorem hookView_ext {u : State} {w : Delivery.State (ConnId ⊕ Gen) Nat}
    (hcur : u.transitions = w.cur) (hcall : ∀ c, (u.call c).debt = w.debt (.inl c))
    (hmon : ∀ g, (u.mon g).phase.debt g = w.debt (.inr g))
    (hout : u.hookCalls.filterMap HookCall.transition = w.out) : u.hookView = w := by
  obtain ⟨cur, debt, out⟩ := w
  unfold hookView
  congr 1
  funext i
  cases i with
  | inl c => exact hcall c
  | inr g => exact hmon g

theorem hookView_setCall (c : ConnId) (k : Call) :
    (v.setCall c k).hookView = v.hookView.setDebt (.inl c) k.debt := by
  refine hookView_ext rfl (fun d => ?_) (fun g => rfl) rfl
  by_cases hd : d = c
  · subst hd
    simp
  · have hne : (Sum.inl d : ConnId ⊕ Gen) ≠ .inl c := fun he => hd (Sum.inl.inj he)
    rw [Delivery.State.setDebt_debt_of_ne _ _ hne]
    simp [hookView, hd]

/-- An update of the monitor of generation `g`. -/
theorem hookView_setMon (g : Gen) (m : Mon) :
    ({ v with mon := update v.mon g m } : State).hookView =
      v.hookView.setDebt (.inr g) (m.phase.debt g) := by
  refine hookView_ext rfl (fun d => rfl) (fun k => ?_) rfl
  by_cases hk : k = g
  · subst hk
    simp
  · have hne : (Sum.inr k : ConnId ⊕ Gen) ≠ .inr g := fun he => hk (Sum.inr.inj he)
    rw [Delivery.State.setDebt_debt_of_ne _ _ hne]
    simp [hookView, hk]

theorem hookView_addHook {x : HookCall} {k : Nat} (hx : HookCall.transition x = some k) :
    (v.addHook x).hookView = { v.hookView with out := v.hookView.out ++ [k] } := by
  refine hookView_ext rfl (fun d => rfl) (fun k => rfl) ?_
  simp [hookView, hx]

/-- The call moves on and its thread owes what it owed before. -/
theorem hookView_setCall_quiet {u : State} {c : ConnId} {k : Call}
    (hu : u.hookView = v.hookView) (hk : k.debt = (v.call c).debt) :
    (u.setCall c k).hookView = v.hookView := by
  rw [hookView_setCall, hu]
  exact Delivery.State.setDebt_eq_self hk.symm

/-- The monitor moves on and owes what it owed before. -/
theorem hookView_setMon_quiet {u : State} {g : Gen} {m : Mon} (hu : u.hookView = v.hookView)
    (hm : m.phase.debt g = ((v.mon g).phase).debt g) :
    ({ u with mon := update u.mon g m } : State).hookView = v.hookView := by
  rw [hookView_setMon, hu]
  exact Delivery.State.setDebt_eq_self hm.symm

end State

/-! ## Who waits for a stop -/

variable {v v' : State} {b : Act}

/-- A core that was asked to stop has a caller of `stop` waiting for it. -/
def Attended (v : State) : Prop :=
  ∀ run, v.core = .running run → run.stopRequested = true →
    ∃ c r, v.call c = .stopping r (v.nGen - 1)

/-- A call that is not waiting in `stop` moves. -/
theorem Attended.setCall (hA : Attended v) {c : ConnId} {k : Call}
    (hc : ∀ r g, v.call c ≠ .stopping r g) : Attended (v.setCall c k) := by
  intro run hrun hreq
  obtain ⟨d, r, hd⟩ := hA run hrun hreq
  have hdc : d ≠ c := by
    intro he
    rw [he] at hd
    exact hc r _ hd
  exact ⟨d, r, by simpa only [State.setCall, Function.update_of_ne hdc] using hd⟩

theorem Attended.step (hA : Attended v) (h : Step v b v') : Attended v' := by
  cases h with
  | spawn =>
    -- a new core has not been asked to stop
    intro run hrun hreq
    injection hrun with hrun
    rw [← hrun] at hreq
    cases hreq
  | @mark c r run hc hcore =>
    intro _ _ _
    exact ⟨c, r, Function.update_self ..⟩
  | @monitor c g hc =>
    have hA' : Attended (v.setCall c (.raising g)) := hA.setCall (by simp [hc])
    exact hA'
  | upHook hc | noStop hc | downHook hc => exact hA.setCall (by simp [hc])
  | seen hc hcore =>
    intro run hrun
    have hrun : v.core = .running run := hrun
    rw [hcore] at hrun
    cases hrun
  | exit =>
    intro run hrun
    cases hrun
  | _ => exact hA

theorem Attended.of_reachable (h : machine.Reachable v) : Attended v :=
  h.invariant (fun _ h => nomatch h) fun _ hA _ hs => hA.step hs

/-! ## Every step -/

/-- A lifecycle step fires no hook and makes no transition, or is a step of the
delivery that loses no hook. -/
def HookStep (v v' : State) : Prop :=
  v'.hookView = v.hookView ∨
    ∃ b, Delivery.Kept v.hookView b ∧ Delivery.Step v.hookView b v'.hookView

/-- `start` spawns the next generation, and its caller is going to fire the up hook. -/
theorem hookStep_spawn {c : ConnId} {pid : Int32} {port : UInt16}
    (h : Step v (.spawn c pid port) v') : HookStep v v' := by
  cases h with
  | spawn hc hcore hpid =>
    refine .inr ⟨.passBy (.inl c) (2 * v.nGen + 1), trivial, ?_⟩
    have hpass : ({ v with
        core := .running { pid := pid, rpcPort := port, stopRequested := false }
        child := update v.child v.nGen ⟨pid, port, .alive⟩
        nGen := v.nGen + 1 } : State).hookView =
          { v.hookView with cur := 2 * v.nGen + 1 } := by
      refine State.hookView_ext ?_ (fun _ => rfl) (fun _ => rfl) rfl
      show 2 * (v.nGen + 1) - 1 = 2 * v.nGen + 1
      omega
    have hset := State.hookView_setCall (v := { v with
        core := .running { pid := pid, rpcPort := port, stopRequested := false }
        child := update v.child v.nGen ⟨pid, port, .alive⟩
        nGen := v.nGen + 1 }) c (.spawned v.nGen)
    rw [hpass] at hset
    refine hset ▸ .passBy ?_
    show v.transitions < 2 * v.nGen + 1
    unfold State.transitions
    rw [hcore]
    exact Nat.lt_succ_self _

/-- `stop` marks the core, and its caller is going to fire the down hook once the core
has stopped. -/
theorem hookStep_mark (hB : Base v) {c : ConnId} {r : HookReason} (h : Step v (.mark c r) v') :
    HookStep v v' := by
  cases h with
  | @mark _ _ run hc hcore =>
    obtain ⟨g, hn, -⟩ := hB.latest run hcore
    have hg : v.nGen - 1 = g := by omega
    refine .inr ⟨.wait (.inl c), congrArg Call.debt hc, ?_⟩
    have hmark : ({ v with
        core := .running { run with stopRequested := true }
        stopCalls := v.stopCalls ++ [⟨c, r, v.nGen - 1⟩] } : State).hookView = v.hookView := by
      refine State.hookView_ext ?_ (fun _ => rfl) (fun _ => rfl) rfl
      show 2 * v.nGen - 1 = v.transitions
      unfold State.transitions
      rw [hcore]
    have hset := State.hookView_setCall (v := { v with
        core := .running { run with stopRequested := true }
        stopCalls := v.stopCalls ++ [⟨c, r, v.nGen - 1⟩] }) c (.stopping r (v.nGen - 1))
    rw [hmark] at hset
    refine hset ▸ .wait ?_
    show v.transitions < 2 * (v.nGen - 1) + 2
    unfold State.transitions
    rw [hcore]
    show 2 * v.nGen - 1 < 2 * (v.nGen - 1) + 2
    omega

/-- The monitor makes the `Stopped` transition. Nobody asked for it: the monitor is
going to fire the hook. Otherwise a caller of `stop` waits for it. -/
theorem hookStep_exit (hB : Base v) (hT : Tracked v) (hA : Attended v) {g : Gen}
    (h : Step v (.exit g) v') : HookStep v v' := by
  cases h with
  | @exit _ run hg hcore hpid =>
    have hn := hT.exiting_latest hB hg
    have hcur : v.transitions < 2 * g + 2 := by
      unfold State.transitions
      rw [hcore, hn]
      exact Nat.sub_lt (Nat.succ_pos _) Nat.one_pos
    have hpass : ({ v with core := .stopped } : State).hookView =
        { v.hookView with cur := 2 * g + 2 } := by
      refine State.hookView_ext ?_ (fun _ => rfl) (fun _ => rfl) rfl
      show 2 * v.nGen = 2 * g + 2
      rw [hn]
      exact Nat.mul_succ 2 g
    by_cases hreq : run.stopRequested = true
    · obtain ⟨c, r, hwait⟩ := hA run hcore hreq
      rw [show v.nGen - 1 = g by rw [hn]; exact Nat.add_sub_cancel g 1] at hwait
      refine .inr ⟨.pass (2 * g + 2), ⟨.inl c, congrArg Call.debt hwait⟩, ?_⟩
      rw [if_pos hreq]
      have hview : (({ v with core := .stopped } : State).setPhase g .over).hookView =
          { v.hookView with cur := 2 * g + 2 } := by
        rw [← hpass]
        exact State.hookView_setMon_quiet rfl (by rw [show (_ : Phase) = .exiting from hg]; rfl)
      rw [hview]
      exact .pass hcur
    · refine .inr ⟨.passBy (.inr g) (2 * g + 2), trivial, ?_⟩
      rw [if_neg hreq]
      have hview : (({ v with core := .stopped } : State).setPhase g .reporting).hookView =
          { v.hookView with cur := 2 * g + 2 }.setDebt (.inr g) (.owes (2 * g + 2)) := by
        rw [← hpass]
        exact State.hookView_setMon g _
      rw [hview]
      exact .passBy hcur

theorem Step.hookStep (hB : Base v) (hT : Tracked v) (hW : Awaited v) (hA : Attended v)
    (h : Step v b v') : HookStep v v' := by
  have hcall : ∀ {c : ConnId} {k : Call}, v.call c = k → v.hookView.debt (.inl c) = k.debt :=
    fun hc => congrArg Call.debt hc
  cases h with
  | spawn hc hcore hpid => exact hookStep_spawn (.spawn hc hcore hpid)
  | mark hc hcore => exact hookStep_mark hB (.mark hc hcore)
  | exit hg hcore hpid => exact hookStep_exit hB hT hA (.exit hg hcore hpid)
  | exitOther hg hother => exact absurd (.exitOther hg hother) (hT.not_exitOther hB)
  | @monitor c g hc =>
    have hset : (v.setCall c (.raising g)).hookView = v.hookView :=
      State.hookView_setCall_quiet rfl (by rw [hc]; rfl)
    refine .inl ?_
    rw [← hset]
    refine State.hookView_setMon_quiet (u := v.setCall c (.raising g)) rfl ?_
    show Debt.clear = (v.mon g).phase.debt g
    rw [(hB.spawned c g hc).2.1]
    rfl
  | @upHook c g hc =>
    refine .inr ⟨.deliver (.inl c), trivial, ?_⟩
    rw [State.hookView_setCall, State.hookView_addHook (k := 2 * g + 1) rfl]
    exact .deliver (hcall hc)
  | @downHook c r g hc =>
    refine .inr ⟨.deliver (.inl c), trivial, ?_⟩
    rw [State.hookView_setCall, State.hookView_addHook (k := 2 * g + 2) rfl, Call.debt_after]
    exact .deliver (hcall hc)
  | @noStop c r hc hcore =>
    exact .inl (State.hookView_setCall_quiet rfl (by rw [hc, Call.debt_after]; rfl))
  | @seen c r g hc hcore =>
    refine .inr ⟨.redeem (.inl c), trivial, ?_⟩
    rw [State.hookView_setCall]
    refine .redeem (hcall hc) ?_
    show 2 * g + 2 ≤ v.transitions
    unfold State.transitions
    rw [hcore]
    exact Nat.mul_le_mul_left 2 (Nat.succ_le_of_lt (hW c r g hc))
  | @exitHook g hg =>
    refine .inr ⟨.deliver (.inr g), trivial, ?_⟩
    unfold State.setPhase
    rw [State.hookView_setMon, State.hookView_addHook (k := 2 * g + 2) rfl]
    exact .deliver (congrArg (Phase.debt g) hg)
  | reap hg | term hg | kill hg | poll hg | waitErr hg | checkYes hg | checkNo hg | arm hg
  | decideKill hg | decideWait hg | wake hg =>
    -- the monitor stays in its poll loop, or leaves it
    exact .inl (State.hookView_setMon_quiet rfl (by rw [hg]; rfl))
  | die | tick => exact .inl rfl

/-- **The hook calls refine ordered delivery**, and none is lost. -/
def hookOrder : Transition.Refinement machine (Delivery.machine (ConnId ⊕ Gen) 0) where
  view := State.hookView
  label v _ b := Delivery.Kept v.hookView b
  init := State.hookView_ext rfl (fun _ => rfl) (fun _ => rfl) rfl
  step hr hs :=
    hs.hookStep (.of_reachable hr) (.of_reachable hr) (.of_reachable hr) (.of_reachable hr)

end EasyTierMac.Lifecycle
