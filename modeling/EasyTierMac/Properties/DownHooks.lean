import EasyTierMac.Properties.OneCore

/-!
# One down hook for each core death

Two callers of `stop` that wait for the same death both fire the down hook, which
a takeover during a stop makes possible (`down_hook_fires_twice`). As long as no
`stop` finds a core that is already marked, every reaped generation gets exactly
one down hook, and its reason says whether anybody had asked for the exit.
-/

namespace EasyTierMac.Supervisor

open Lifecycle (Mirror Mirroring OneStop)

variable {env : Env} {s s' : Sys}

/-- The calls of `run_hook(Down, ..)` that mirror the death of generation `g`. -/
def Sys.downCalls (s : Sys) (g : Gen) : List HookCall :=
  s.hookCalls.filter fun x => x.event = .down ∧ x.gen = some g

/-- Inside `stop` for generation `g`. -/
def ConnPc.inStop (g : Gen) : ConnPc → Bool
  | .stopWait _ k | .stopHook _ k => k == g
  | _ => false

/-- No thread is inside `stop` or `handle_core_exit` for generation `g`. -/
def Returned (s : Sys) (g : Gen) : Prop :=
  (s.monitors g).pc = .done ∧ ∀ c, (s.conns c).pc.inStop g = false

/-- One down hook for each reaped generation and none for the others; its reason is
`CoreExited` exactly when nobody had asked for the exit. -/
structure DownOnce (s : Sys) (g : Gen) : Prop where
  reaped : s.downCalls g ≠ [] → g < s.nGen ∧ (s.children g).life = .reaped
  le_one : (s.downCalls g).length ≤ 1
  exactly : g < s.nGen → (s.children g).life = .reaped → Returned s g →
    ∃ r, s.downCalls g = [⟨.down, some r, some g⟩] ∧
      (r = .requested ∨ r = .ownerDrop ∨ r = .coreExited) ∧
      (r = .coreExited ↔ ∀ x ∈ s.stopCalls, x.gen ≠ g)

/-- A `stop` that takes the lock finds the running core already marked. -/
def stopsTwice (s : Sys) : Action → Bool
  | .conn c _ =>
    match (s.conns c).pc, s.core with
    | .stopLock _, .running run => run.stopRequested
    | _, _ => false
  | _ => false

/-- No error of `try_wait`, and no `stop` of a core that is already marked. -/
def StopsOnce (s : Sys) (a : Action) : Prop := NoWaitError s a ∧ stopsTwice s a = false

instance : ∀ s a, Decidable (StopsOnce s a) := fun _ _ => inferInstanceAs (Decidable (_ ∧ _))

/-! ## Exactly one -/

theorem StopsOnce.label (hr : (supervisor env).Reachable s) {a : Action} (h : StopsOnce s a)
    {b : Lifecycle.Act} (hl : LifeLabel s a b) : OneStop s.lifeView b where
  noWaitErr := h.1.label hl
  unmarked c r hb run hcore := by
    subst hb
    obtain ⟨⟨ans, rfl⟩, hpc⟩ := hl
    have hst := h.2
    simp only [stopsTwice, hpc, show s.core = .running run from hcore] at hst
    exact hst
  reason c r hb := by
    subst hb
    exact stopReasons_of_reachable hr c r hl.2

theorem mirroring_of_reachable (h : (supervisor env).ReachableBy StopsOnce s) :
    Mirroring s.lifeView :=
  .of_reachable ((lifecycle env).reachableBy (fun hr hp hl => hp.label hr.reachable hl) h)

theorem downCalls_eq (s : Sys) (g : Gen) : s.lifeView.downs g = s.downCalls g := by
  show (s.hookCalls.filter _).filter _ = s.hookCalls.filter _
  rw [List.filter_filter]
  congr 1
  funext x
  cases x.gen <;> simp

theorem ConnPc.busy_iff (pc : ConnPc) (g : Gen) : pc.call.busy g ↔ pc.inStop g = true := by
  cases pc <;> simp [call, inStop, Lifecycle.Call.busy]

/-- **One down hook for each core death**, while no `stop` finds a core that is
already marked. -/
theorem down_hook_once (h : (supervisor env).ReachableBy StopsOnce s) (g : Gen) :
    DownOnce s g := by
  have hM := mirroring_of_reachable h
  have hB := base_of_reachable h.reachable
  have hR := reaped_of_reachable (h.mono fun _ _ hp => hp.1)
  have hmir := hM.mirror g
  rw [downCalls_eq] at hmir
  refine ⟨fun hne => ?_, hmir.length_le_one, fun hlt hlife hret => ?_⟩
  · have hover := hmir.over_of_downs hne
    exact ⟨hB.lt_of_phase (by simp [hover]), hR.settled g (by rw [hover]; trivial)⟩
  · have hover : (s.lifeView.mon g).phase = .over := congrArg MonPc.phase hret.1
    have hcall : ∀ c, ¬ (s.lifeView.call c).busy g := by
      intro c
      exact (ConnPc.busy_iff _ g).not.mpr (by simp [hret.2 c])
    rw [hover] at hmir
    obtain ⟨r, hl, hr, hiff⟩ := hmir.downs_eq hcall
    refine ⟨r, hl, hr, hiff.trans ?_⟩
    show ¬ (∃ x ∈ s.stopCalls, x.gen = g) ↔ _
    simp

namespace Client

/-- The owner stops the core, and the connection that takes the lease over during
the stop stops it as well; then the core dies. -/
def stopTwice : List Action :=
  [boot, connect 0 helloText, own 0, start 0 7, stop 0, connect 1 takeoverText, takeOver 1, stop 1,
    perish 0, [.conn 0 .done, .conn 1 .done, .conn 0 (.stat .absent), .conn 1 (.stat .absent)]].flatten

/-- The owner stops the core, which dies. -/
def stopOnce : List Action :=
  [boot, connect 0 helloText, own 0, start 0 7, stop 0, perish 0,
    [.conn 0 .done, .conn 0 (.stat .absent)]].flatten

end Client

/-- Two callers of `stop` that wait for the same death both fire the down hook. -/
theorem down_hook_fires_twice : ∃ s, (supervisor Client.env).ReachableBy NoWaitError s ∧
    ∃ g < s.nGen, (s.children g).life = .reaped ∧ Returned s g ∧
      s.downCalls g = [⟨.down, some .requested, some g⟩, ⟨.down, some .requested, some g⟩] := by
  obtain ⟨s, hs, hp⟩ := exists_reachableBy Client.env NoWaitError Client.stopTwice
    (fun s => decide (0 < s.nGen ∧ (s.children 0).life = .reaped ∧ (s.monitors 0).pc = .done ∧
      (∀ c < s.nConns, (s.conns c).pc.inStop 0 = false) ∧
      s.downCalls 0 = [⟨.down, some .requested, some 0⟩, ⟨.down, some .requested, some 0⟩]))
    (by decide +kernel)
  obtain ⟨hgen, hlife, hmon, hconns, hcalls⟩ := of_decide_eq_true hp
  have hA := Accepted.of_reachable hs.reachable
  exact ⟨s, hs, 0, hgen, hlife, ⟨hmon, hA.forall_pc (Q := fun pc => pc.inStop 0 = false) rfl hconns⟩,
    hcalls⟩

theorem down_hook_once_stop : ∃ s, (supervisor Client.env).ReachableBy StopsOnce s ∧
    (s.children 0).life = .reaped ∧ (s.downCalls 0).length = 1 ∧ DownOnce s 0 := by
  obtain ⟨s, hs, hp⟩ := exists_reachableBy Client.env StopsOnce Client.stopOnce
    (fun s => decide ((s.children 0).life = .reaped ∧ (s.downCalls 0).length = 1))
    (by decide +kernel)
  obtain ⟨hlife, hlen⟩ := of_decide_eq_true hp
  exact ⟨s, hs, hlife, hlen, down_hook_once hs 0⟩

end EasyTierMac.Supervisor
