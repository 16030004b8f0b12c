import EasyTierMac.Lifecycle.Machine

/-!
# One core, tracked

The invariants that tie the core entry, the process table, the monitors and the
callers together. `Base` is about pids: a monitor in its poll loop watches an
unreaped child, an unreaped child keeps its pid to itself, and the core entry
names the latest generation. `Tracked` is about generations: every generation
but the latest is settled, and the latest is exactly as long as the core entry
says running. Both hold whatever `try_wait` answers. `Reaped` adds that a
generation whose monitor has left the poll loop is reaped, which needs
`try_wait` to report no error (`NoWaitErr`).
-/

namespace EasyTierMac.Lifecycle

open Function (update_apply)
open Supervisor (Gen ConnId Running HookReason)

variable {v v' : State} {b : Act}

/-! ## Pids -/

/-- Generations, pids and monitors fit together. -/
structure Base (v : State) : Prop where
  unspawned : ∀ g, v.nGen ≤ g → (v.mon g).phase = .absent ∧ (v.child g).life = .reaped
  monPid : ∀ g, (v.mon g).phase ≠ .absent → (v.mon g).pid = (v.child g).pid
  polling : ∀ g, (v.mon g).phase.polling → (v.child g).life ≠ .reaped
  spawned : ∀ c g, v.call c = .spawned g →
    g < v.nGen ∧ (v.mon g).phase = .absent ∧ (v.child g).life ≠ .reaped
  unique : ∀ c d g, v.call c = .spawned g → v.call d = .spawned g → c = d
  /-- A generation does not get the pid of an older one that is still to be reaped. -/
  distinct : ∀ g h, g < h → h < v.nGen → (v.child g).life ≠ .reaped →
    (v.child g).pid ≠ (v.child h).pid
  latest : ∀ run, v.core = .running run → ∃ g, v.nGen = g + 1 ∧
    run.pid = (v.child g).pid ∧ run.rpcPort = (v.child g).rpcPort

theorem Base.init : Base {} where
  unspawned _ _ := ⟨rfl, rfl⟩
  monPid _ h := absurd rfl h
  polling _ h := h.elim
  spawned _ _ h := by cases h
  unique _ _ _ h := by cases h
  distinct _ _ _ h := by simp at h
  latest _ h := by cases h

namespace Base

/-- A generation that was never spawned stays untouched. -/
theorem step_unspawned (hI : Base v) (h : Step v b v') :
    ∀ g, v'.nGen ≤ g → (v'.mon g).phase = .absent ∧ (v'.child g).life = .reaped := by
  have hun := hI.unspawned
  have hsp := hI.spawned
  cases h with
  | spawn hc hcore hpid =>
    intro k hk
    have hk : v.nGen + 1 ≤ k := hk
    have hne : k ≠ v.nGen := by omega
    refine ⟨(hun k (by omega)).1, ?_⟩
    simp only [update_apply, if_neg hne]
    exact (hun k (by omega)).2
  | @monitor c g hc =>
    intro k hk
    have hk : v.nGen ≤ k := hk
    have hlt := (hsp c g hc).1
    have hne : k ≠ g := (Nat.lt_of_lt_of_le hlt hk).ne'
    refine ⟨?_, (hun k hk).2⟩
    simp only [update_apply, if_neg hne]
    exact (hun k hk).1
  | _ =>
    -- the monitor or the child that moves is not one of an unspawned generation
    simp only [State.setPhase, State.setCall, State.addHook, State.addSignal, State.setLife,
      update_apply]
    grind

/-- The monitor of a generation got the pid of its child, and nobody changes either. -/
theorem step_monPid (hI : Base v) (h : Step v b v') :
    ∀ g, (v'.mon g).phase ≠ .absent → (v'.mon g).pid = (v'.child g).pid := by
  have hpid := hI.monPid
  intro k hk
  cases h with
  | spawn hc hcore hfree =>
    have hne : k ≠ v.nGen := fun he => hk (he ▸ (hI.unspawned _ (Nat.le_refl _)).1)
    simp only [update_apply, if_neg hne]
    exact hpid k hk
  | _ =>
    revert hk
    simp only [State.setPhase, State.setCall, State.addHook, State.addSignal, State.setLife,
      update_apply]
    grind

/-- Only `reap` reaps, and it leaves the poll loop. -/
theorem step_polling (hI : Base v) (h : Step v b v') :
    ∀ g, (v'.mon g).phase.polling → (v'.child g).life ≠ .reaped := by
  have hpoll := hI.polling
  intro k hk
  cases h with
  | spawn hc hcore hfree =>
    have hne : k ≠ v.nGen := by
      rintro rfl
      rw [show (v.mon v.nGen).phase = .absent from (hI.unspawned _ (Nat.le_refl _)).1] at hk
      exact hk
    simp only [update_apply, if_neg hne]
    exact hpoll k hk
  | monitor hc =>
    have hlife := (hI.spawned _ _ hc).2.2
    revert hk
    simp only [update_apply]
    split
    · next he => exact fun _ => he ▸ hlife
    · exact hpoll k
  | _ =>
    revert hk
    simp only [State.setPhase, State.setCall, State.addHook, State.addSignal, State.setLife,
      update_apply]
    grind [Phase.polling]

/-- Between the spawn and its monitor nobody touches a generation. -/
theorem step_spawned (hI : Base v) (h : Step v b v') :
    ∀ c g, v'.call c = .spawned g →
      g < v'.nGen ∧ (v'.mon g).phase = .absent ∧ (v'.child g).life ≠ .reaped := by
  have hun := hI.unspawned
  have hsp := hI.spawned
  have huq := hI.unique
  cases h with
  | spawn hc hcore hfree =>
    intro d k hd
    simp only [update_apply] at hd ⊢
    split at hd
    · injection hd with hd
      subst hd
      exact ⟨Nat.lt_succ_self _, (hun _ (Nat.le_refl _)).1, by simp⟩
    · obtain ⟨hlt, hph, hlife⟩ := hsp d k hd
      have hne : k ≠ v.nGen := Nat.ne_of_lt hlt
      exact ⟨Nat.lt_succ_of_lt hlt, hph, by rwa [if_neg hne]⟩
  | _ =>
    simp only [State.setPhase, State.setCall, State.addHook, State.addSignal, State.setLife,
      update_apply]
    grind [Call.after]

theorem step_unique (hI : Base v) (h : Step v b v') :
    ∀ c d g, v'.call c = .spawned g → v'.call d = .spawned g → c = d := by
  have hsp := hI.spawned
  have huq := hI.unique
  cases h <;>
    simp only [State.setPhase, State.setCall, State.addHook, State.addSignal, State.setLife,
      update_apply] <;>
    grind [Call.after]

/-- The pid of a new generation is free, and reaping only frees pids. -/
theorem step_distinct (hI : Base v) (h : Step v b v') :
    ∀ g h, g < h → h < v'.nGen → (v'.child g).life ≠ .reaped →
      (v'.child g).pid ≠ (v'.child h).pid := by
  have hdis := hI.distinct
  cases h with
  | spawn hc hcore hfree =>
    intro i k hik hk hlife
    have hk : k < v.nGen + 1 := hk
    have hi : i ≠ v.nGen := by omega
    simp only [update_apply, if_neg hi] at hlife ⊢
    by_cases hkn : k = v.nGen
    · rw [if_pos hkn]
      exact hfree i (by omega) hlife
    · rw [if_neg hkn]
      exact hdis i k hik (by omega) hlife
  | _ =>
    simp only [State.setPhase, State.setCall, State.addHook, State.addSignal, State.setLife,
      update_apply]
    grind

theorem step_latest (hI : Base v) (h : Step v b v') :
    ∀ run, v'.core = .running run → ∃ g, v'.nGen = g + 1 ∧
      run.pid = (v'.child g).pid ∧ run.rpcPort = (v'.child g).rpcPort := by
  have hlat := hI.latest
  cases h <;>
    simp only [State.setPhase, State.setCall, State.addHook, State.addSignal, State.setLife,
      update_apply] <;>
    grind

theorem step (hI : Base v) (h : Step v b v') : Base v' where
  unspawned := hI.step_unspawned h
  monPid := hI.step_monPid h
  polling := hI.step_polling h
  spawned := hI.step_spawned h
  unique := hI.step_unique h
  distinct := hI.step_distinct h
  latest := hI.step_latest h

theorem of_reachable (h : machine.Reachable v) : Base v :=
  h.invariant .init fun _ hI _ hs => hI.step hs

/-- Only a generation that has been spawned has a monitor. -/
theorem lt_of_phase (hB : Base v) {g : Gen} (hp : (v.mon g).phase ≠ .absent) : g < v.nGen := by
  by_contra hle
  exact hp (hB.unspawned g (Nat.le_of_not_lt hle)).1

/-- Only a generation that has been spawned has a child. -/
theorem lt_of_life (hB : Base v) {g : Gen} (hl : (v.child g).life ≠ .reaped) : g < v.nGen := by
  by_contra hle
  exact hl (hB.unspawned g (Nat.le_of_not_lt hle)).2

end Base

/-! ## Generations -/

/-- Every generation but the latest is settled, and the latest is not settled
exactly as long as the core entry says running. -/
structure Tracked (v : State) : Prop where
  open_latest : ∀ g, g < v.nGen → ¬ (v.mon g).phase.settled →
    v.nGen = g + 1 ∧ ∃ run, v.core = .running run
  running_open : ∀ run g, v.core = .running run → v.nGen = g + 1 → ¬ (v.mon g).phase.settled
  /-- No monitor yet: some `start` is about to create it. -/
  unwatched : ∀ g, g < v.nGen → (v.mon g).phase = .absent → ∃ c, v.call c = .spawned g

theorem Tracked.init : Tracked {} where
  open_latest _ h := by simp at h
  running_open _ _ h := by cases h
  unwatched _ h := by simp at h

/-- The core runs with the pid of an unsettled monitor's generation. -/
theorem Tracked.pid_eq (hT : Tracked v) (hB : Base v) {g : Gen} (hg : g < v.nGen)
    (hph : (v.mon g).phase ≠ .absent) (hns : ¬ (v.mon g).phase.settled) :
    ∃ run, v.core = .running run ∧ run.pid = (v.mon g).pid := by
  obtain ⟨hn, run, hrun⟩ := hT.open_latest g hg hns
  obtain ⟨g', hn', hpid, _⟩ := hB.latest run hrun
  have hgg : g' = g := by omega
  exact ⟨run, hrun, by rw [hpid, hgg, hB.monPid g hph]⟩

/-- **The "not our generation" branch is never taken.** -/
theorem Tracked.not_exitOther (hT : Tracked v) (hB : Base v) {g : Gen} {v' : State} :
    ¬ Step v (.exitOther g) v' := by
  intro h
  cases h with
  | exitOther hg hother =>
    have hne : (v.mon g).phase ≠ .absent := by simp [hg]
    obtain ⟨run, hrun, hpid⟩ := hT.pid_eq hB (hB.lt_of_phase hne) hne (by simp [hg, Phase.settled])
    exact hother run hrun hpid

/-- A core whose monitor is going to make the `Stopped` transition is the latest one. -/
theorem Tracked.exiting_latest (hT : Tracked v) (hB : Base v) {g : Gen}
    (hg : (v.mon g).phase = .exiting) : v.nGen = g + 1 :=
  (hT.open_latest g (hB.lt_of_phase (by simp [hg])) (by simp [hg, Phase.settled])).1

namespace Tracked

theorem step_open (hT : Tracked v) (hB : Base v) (h : Step v b v') :
    ∀ g, g < v'.nGen → ¬ (v'.mon g).phase.settled →
      v'.nGen = g + 1 ∧ ∃ run, v'.core = .running run := by
  have hopen := hT.open_latest
  have hsp := hB.spawned
  cases h with
  | spawn hc hcore hfree =>
    -- the core entry said stopped, so every older generation is settled
    intro k hk hns
    have hk : k < v.nGen + 1 := hk
    by_cases hlt : k < v.nGen
    · obtain ⟨-, run, hrun⟩ := hopen k hlt hns
      rw [hcore] at hrun
      cases hrun
    · have hkn : k = v.nGen := by omega
      exact ⟨by rw [hkn], _, rfl⟩
  | @exit g run hg hcore hpid =>
    -- the latest generation is the one that settles
    intro k hk hns
    have hk : k < v.nGen := hk
    by_cases hkg : k = g
    · subst hkg
      refine absurd ?_ hns
      simp only [State.setPhase, Function.update_self]
      split <;> trivial
    · simp only [State.setPhase, update_apply, if_neg hkg] at hns
      have hk' := (hopen k hk hns).1
      have hg' := hT.exiting_latest hB hg
      exact absurd (Nat.succ.inj (hk'.symm.trans hg')) hkg
  | exitOther hg hother => exact absurd (.exitOther hg hother) (hT.not_exitOther hB)
  | _ =>
    simp only [State.setPhase, State.setCall, State.addHook, State.addSignal, State.setLife,
      update_apply]
    grind [Phase.settled]

theorem step_running (hT : Tracked v) (hB : Base v) (h : Step v b v') :
    ∀ run g, v'.core = .running run → v'.nGen = g + 1 → ¬ (v'.mon g).phase.settled := by
  have hrun := hT.running_open
  cases h with
  | spawn hc hcore hfree =>
    intro run k _ hn
    have hn : v.nGen + 1 = k + 1 := hn
    have hk : k = v.nGen := by omega
    simp [hk, (hB.unspawned _ (Nat.le_refl _)).1, Phase.settled]
  | exitOther hg hother => exact absurd (.exitOther hg hother) (hT.not_exitOther hB)
  | _ =>
    simp only [State.setPhase, State.setCall, State.addHook, State.addSignal, State.setLife,
      update_apply]
    grind [Phase.settled]

theorem step_unwatched (hT : Tracked v) (h : Step v b v') :
    ∀ g, g < v'.nGen → (v'.mon g).phase = .absent → ∃ c, v'.call c = .spawned g := by
  have hun := hT.unwatched
  cases h with
  | @spawn c pid port hc hcore hfree =>
    intro k hk hph
    have hk : k < v.nGen + 1 := hk
    by_cases hlt : k < v.nGen
    · obtain ⟨d, hd⟩ := hun k hlt hph
      have hdc : d ≠ c := by
        rintro rfl
        rw [hc] at hd
        cases hd
      exact ⟨d, by simpa only [update_apply, if_neg hdc] using hd⟩
    · have hkn : k = v.nGen := by omega
      exact ⟨c, by rw [hkn]; exact Function.update_self ..⟩
  | @monitor c g hc =>
    intro k hk hph
    by_cases hkg : k = g
    · simp [hkg] at hph
    · simp only [update_apply, if_neg hkg] at hph
      obtain ⟨d, hd⟩ := hun k hk hph
      have hdc : d ≠ c := by
        rintro rfl
        rw [hc] at hd
        injection hd with he
        exact hkg he.symm
      exact ⟨d, by simpa only [update_apply, if_neg hdc] using hd⟩
  | _ =>
    intro k hk
    have hk := hun k hk
    revert hk
    simp only [State.setPhase, State.setCall, State.addHook, State.addSignal, State.setLife,
      update_apply]
    grind

theorem step (hT : Tracked v) (hB : Base v) (h : Step v b v') : Tracked v' where
  open_latest := hT.step_open hB h
  running_open := hT.step_running hB h
  unwatched := hT.step_unwatched h

theorem of_reachable (h : machine.Reachable v) : Tracked v :=
  h.invariant .init fun hr hT _ hs => hT.step (.of_reachable hr) hs

/-- Nothing runs: every generation is settled. -/
theorem settled_of_stopped (hT : Tracked v) (hcore : v.core = .stopped) {g : Gen}
    (hg : g < v.nGen) : (v.mon g).phase.settled := by
  by_contra hns
  obtain ⟨-, run, hrun⟩ := hT.open_latest g hg hns
  rw [hcore] at hrun
  cases hrun

end Tracked

/-- A core is spawned only while the core entry says stopped. -/
theorem Step.stopped_of_nGen (h : Step v b v') (hne : v'.nGen ≠ v.nGen) : v.core = .stopped := by
  cases h with
  | spawn _ hcore => exact hcore
  | _ => exact absurd rfl hne

/-! ## Waiting in `stop` -/

/-- A caller of `stop` waits for a generation that was spawned. -/
def Awaited (v : State) : Prop := ∀ c r g, v.call c = .stopping r g → g < v.nGen

/-- What holds of the generations that are waited for, when a call moves. -/
theorem stopping_setCall {Q : Gen → Prop} (hQ : ∀ c r g, v.call c = .stopping r g → Q g)
    {c : ConnId} {k : Call} (hk : ∀ r g, k = .stopping r g → Q g) :
    ∀ d r g, (v.setCall c k).call d = .stopping r g → Q g := by
  intro d r g hd
  by_cases hdc : d = c
  · subst hdc
    simp only [State.setCall, Function.update_self] at hd
    exact hk r g hd
  · simp only [State.setCall, Function.update_of_ne hdc] at hd
    exact hQ d r g hd

theorem Awaited.setCall (hW : Awaited v) {c : ConnId} {k : Call}
    (hk : ∀ r g, k = .stopping r g → g < v.nGen) : Awaited (v.setCall c k) :=
  stopping_setCall hW hk

theorem Awaited.step (hW : Awaited v) (hB : Base v) (h : Step v b v') : Awaited v' := by
  cases h with
  | @spawn c pid port =>
    intro d r g hd
    refine Nat.lt_succ_of_lt ?_
    exact (hW.setCall (c := c) (k := .spawned v.nGen) fun _ _ h => nomatch h) d r g hd
  | @monitor c g hc =>
    have hset := hW.setCall (c := c) (k := .raising g) fun _ _ h => nomatch h
    exact hset
  | upHook | seen =>
    exact hW.setCall fun _ _ h => nomatch h
  | @noStop c r | @downHook c r =>
    refine hW.setCall fun r' g' h => ?_
    cases r <;> cases h
  | @mark c r run hc hcore =>
    obtain ⟨g, hn, -, -⟩ := hB.latest run hcore
    have hset := hW.setCall (c := c) (k := .stopping r (v.nGen - 1)) ?_
    · exact hset
    · intro r' g' h
      injection h with _ hg
      rw [← hg, hn]
      exact Nat.lt_succ_self g
  | _ => exact hW

theorem Awaited.of_reachable (h : machine.Reachable v) : Awaited v :=
  h.invariant (fun _ _ _ h => nomatch h) fun hr hW _ hs => hW.step (.of_reachable hr) hs

/-- Every `stop` that waits does so for the latest generation. -/
def AtLatest (v : State) : Prop := ∀ c r g, v.call c = .stopping r g → v.nGen = g + 1

theorem AtLatest.step (hA : AtLatest v) (hB : Base v)
    (hn : v'.nGen = v.nGen ∨ ∀ c r g, v.call c ≠ .stopping r g) (h : Step v b v') :
    AtLatest v' := by
  cases h with
  | @spawn c pid port =>
    have hno : ∀ c r g, v.call c ≠ .stopping r g := by
      rcases hn with hn | hno
      · exact absurd hn (Nat.succ_ne_self _)
      · exact hno
    exact stopping_setCall (fun d r g hd => absurd hd (hno d r g)) fun _ _ h => nomatch h
  | @monitor c g hc => exact stopping_setCall hA fun _ _ h => nomatch h
  | upHook | seen => exact stopping_setCall hA fun _ _ h => nomatch h
  | @noStop c r | @downHook c r =>
    refine stopping_setCall hA fun r' g' h => ?_
    cases r <;> cases h
  | @mark c r run hc hcore =>
    obtain ⟨g, hgen, -, -⟩ := hB.latest run hcore
    refine stopping_setCall hA fun r' g' h => ?_
    injection h with _ hg
    rw [← hg, hgen]
    rfl
  | _ => exact hA

/-- A `stop` that waits for the latest generation does not miss that it has settled. -/
theorem AtLatest.stopped (hA : AtLatest v) (hT : Tracked v) {c : ConnId} {r : HookReason} {g : Gen}
    (hc : v.call c = .stopping r g) (hg : (v.mon g).phase.settled) : v.core = .stopped := by
  cases hcore : v.core with
  | stopped => rfl
  | running run => exact absurd hg (hT.running_open run g hcore (hA c r g hc))

/-- A `stop` that has seen the core stopped has waited until its generation had settled. -/
def Outwaited (v : State) : Prop :=
  ∀ c r g, v.call c = .lowering r g → g < v.nGen ∧ (v.mon g).phase.settled

theorem Outwaited.step (hO : Outwaited v) (hB : Base v) (hT : Tracked v) (hW : Awaited v)
    (h : Step v b v') : Outwaited v' := by
  have hsp := hB.spawned
  cases h with
  | @seen c r g hc hcore =>
    intro d r' k hd
    by_cases hdc : d = c
    · simp only [State.setCall, hdc, Function.update_self] at hd
      injection hd with _ hk
      subst hk
      have hlt := hW c r g hc
      exact ⟨hlt, hT.settled_of_stopped hcore hlt⟩
    · simp only [State.setCall, Function.update_of_ne hdc] at hd
      exact hO d r' k hd
  | _ =>
    intro d r' k hd
    have hk := hO d r' k
    revert hd
    simp only [State.setPhase, State.setCall, State.addHook, State.addSignal, State.setLife,
      update_apply] at hk ⊢
    grind [Phase.settled, Call.after]

theorem Outwaited.of_reachable (h : machine.Reachable v) : Outwaited v :=
  h.invariant (fun _ _ _ h => nomatch h) fun hr hO _ hs =>
    hO.step (.of_reachable hr) (.of_reachable hr) (.of_reachable hr) hs

/-! ## Reaping -/

/-- `try_wait` reports no error. -/
def NoWaitErr (_ : State) (b : Act) : Prop := ∀ g, b ≠ .waitErr g

/-- A generation whose monitor has left the poll loop is reaped. -/
structure Reaped (v : State) : Prop where
  exiting : ∀ g, (v.mon g).phase = .exiting → (v.child g).life = .reaped
  settled : ∀ g, (v.mon g).phase.settled → (v.child g).life = .reaped

theorem Reaped.init : Reaped {} where
  exiting _ h := by cases h
  settled _ h := h.elim

theorem Reaped.step (hR : Reaped v) (hB : Base v) (hp : NoWaitErr v b) (h : Step v b v') :
    Reaped v' := by
  obtain ⟨hex, hse⟩ := hR
  cases h with
  | @spawn c pid port hc hcore hfree =>
    -- the new generation has no monitor yet
    have hph := (hB.unspawned _ (Nat.le_refl _)).1
    have hne : ∀ k, (v.mon k).phase ≠ .absent → k ≠ v.nGen := fun k hk he => hk (he ▸ hph)
    constructor
    · intro k hk
      simp only [update_apply, if_neg (hne k (by simp [show (v.mon k).phase = .exiting from hk]))]
      exact hex k hk
    · intro k hk
      have hk : (v.mon k).phase.settled := hk
      simp only [update_apply, if_neg (hne k (by rintro he; rw [he] at hk; exact hk))]
      exact hse k hk
  | waitErr hg => exact absurd rfl (hp _)
  | _ =>
    constructor <;>
      simp only [State.setPhase, State.setCall, State.addHook, State.addSignal, State.setLife,
        update_apply] <;>
      grind [Phase.settled]

theorem Reaped.of_reachable (h : machine.ReachableBy NoWaitErr v) : Reaped v :=
  h.invariant .init fun hr hR hp hs => hR.step (.of_reachable hr.reachable) hp hs

/-- **At most one core.** A child that is still to be reaped is the latest one,
and the core entry is about it. -/
theorem Reaped.latest (hR : Reaped v) (hT : Tracked v) (hB : Base v) {g : Gen}
    (hlife : (v.child g).life ≠ .reaped) : v.nGen = g + 1 ∧ ∃ run, v.core = .running run :=
  hT.open_latest g (hB.lt_of_life hlife) fun hs => hlife (hR.settled g hs)

/-- **Nothing runs, nothing is left**: with the core stopped every child is reaped. -/
theorem Reaped.of_stopped (hR : Reaped v) (hT : Tracked v) (hB : Base v)
    (hcore : v.core = .stopped) (g : Gen) : (v.child g).life = .reaped := by
  by_contra hlife
  obtain ⟨-, run, hrun⟩ := hR.latest hT hB hlife
  rw [hcore] at hrun
  cases hrun

end EasyTierMac.Lifecycle
