import EasyTierMac.Supervisor.Runs

/-!
# One core, tracked exactly

At most one core child is unreaped, `st.core` is about it, and exactly one
thread watches it. So `start` never spawns a second core and no monitor clears
the entry of another generation.
-/

namespace EasyTierMac.Supervisor

open Lifecycle (Phase)

variable {env : Env} {s s' : Sys}

/-- A monitor that has not yet made its `Stopped` transition. -/
def MonPc.watching : MonPc → Bool
  | .tryWait | .check | .escalate | .arm | .sendKill | .sleep | .exitLock _ => true
  | _ => false

/-- Exactly one thread watches generation `g`: its monitor, or the one `start`
that is about to create it. -/
def Watched (s : Sys) (g : Gen) : Prop :=
  (s.monitors g).pc.watching = true ∧ (∀ c, (s.conns c).pc ≠ .spawnMonitor g) ∨
    (s.monitors g).pc = .absent ∧ ∃! c, (s.conns c).pc = .spawnMonitor g

/-- What the core entry says about the children and their monitors. -/
structure CoreTracked (s : Sys) : Prop where
  one : ∀ g k, (s.children g).life ≠ .reaped → (s.children k).life ≠ .reaped → g = k
  stopped : s.core = .stopped → ∀ g, (s.children g).life = .reaped
  running : ∀ run, s.core = .running run → ∃ g, s.nGen = g + 1 ∧
    run.pid = (s.children g).pid ∧ run.rpcPort = (s.children g).rpcPort ∧ Watched s g ∧
      ∀ k, k ≠ g → (s.monitors k).pc.watching = false

theorem MonPc.watching_iff {pc : MonPc} :
    pc.watching = true ↔ pc ≠ .absent ∧ ¬ pc.phase.settled := by
  cases pc <;> simp [watching, phase, Phase.settled]

theorem spawnMonitor_iff {c : ConnId} {g : Gen} :
    s.lifeView.call c = .spawned g ↔ (s.conns c).pc = .spawnMonitor g := by
  show (s.conns c).pc.call = .spawned g ↔ _
  cases (s.conns c).pc <;> simp [ConnPc.call]

/-- The latest generation of a running core is watched by exactly one thread. -/
theorem watched_of_running (h : (supervisor env).Reachable s) {g : Gen} {run : Running}
    (hcore : s.core = .running run) (hn : s.nGen = g + 1) : Watched s g := by
  have hB := base_of_reachable h
  have hT := tracked_of_reachable h
  have hopen : ¬ (s.monitors g).pc.phase.settled := hT.running_open run g hcore hn
  by_cases hab : (s.monitors g).pc = .absent
  · have hlt : g < s.nGen := by rw [hn]; exact Nat.lt_succ_self g
    obtain ⟨c, hc⟩ := hT.unwatched g hlt (MonPc.absent_iff.mpr hab)
    refine .inr ⟨hab, c, spawnMonitor_iff.mp hc, fun d hd => ?_⟩
    exact hB.unique d c g (spawnMonitor_iff.mpr hd) hc
  · refine .inl ⟨MonPc.watching_iff.mpr ⟨hab, hopen⟩, fun c hc => hab ?_⟩
    exact MonPc.absent_iff.mp (hB.spawned c g (spawnMonitor_iff.mpr hc)).2.1

theorem coreTracked_of_reachable (h : (supervisor env).ReachableBy NoWaitError s) :
    CoreTracked s := by
  have hB := base_of_reachable h.reachable
  have hT := tracked_of_reachable h.reachable
  have hR := reaped_of_reachable h
  refine ⟨fun g k hg hk => ?_, hR.of_stopped hT hB, fun run hcore => ?_⟩
  · have hg' := (hR.latest hT hB hg).1
    have hk' := (hR.latest hT hB hk).1
    exact Nat.succ.inj (hg'.symm.trans hk')
  · obtain ⟨g, hn, hpid, hport⟩ := hB.latest run hcore
    refine ⟨g, hn, hpid, hport, watched_of_running h.reachable hcore hn, fun k hk => ?_⟩
    by_contra hw
    rw [Bool.not_eq_false, MonPc.watching_iff] at hw
    have hlt : k < s.nGen := hB.lt_of_phase (MonPc.absent_iff.not.mpr hw.1)
    have hk' := (hT.open_latest k hlt hw.2).1
    exact hk (Nat.succ.inj (hk'.symm.trans hn))

/-- `start` spawns a core only while no core is unreaped. -/
def SpawnsAlone (s s' : Sys) : Prop :=
  s'.nGen ≠ s.nGen → ∀ g, (s.children g).life = .reaped

/-- A monitor that changes the core entry is the one of the latest generation, and
one that makes its `Stopped` transition finds its own generation in the entry. -/
def ClearsOwn (s s' : Sys) (a : Action) : Prop :=
  ∀ g ans, a = .monitor g ans →
    (s'.core ≠ s.core → s.nGen = g + 1) ∧
    (∀ info, (s.monitors g).pc = .exitLock info →
      ∃ run, s.core = .running run ∧ run.pid = (s.monitors g).pid)

theorem spawnsAlone_of_reachable (h : (supervisor env).ReachableBy NoWaitError s) {a : Action}
    (hs : step env s a = some s') : SpawnsAlone s s' := by
  intro hne
  refine (coreTracked_of_reachable h).stopped ?_
  rcases (lifecycle env).step h.reachable hs with he | ⟨b, -, hst⟩
  · exact absurd (congrArg Lifecycle.State.nGen he) hne
  · exact hst.stopped_of_nGen hne

theorem clearsOwn_of_reachable (h : (supervisor env).Reachable s) {a : Action}
    (hs : step env s a = some s') : ClearsOwn s s' a := by
  rintro g ans rfl
  refine ⟨fun hne => ?_, fun info hpc => (exitLock_own h hpc).2⟩
  cases (step_move hs).2 with
  | monitor hm =>
    rcases hm.core_eq with he | ⟨info, hpc⟩
    · exact absurd he hne
    · exact (exitLock_own h hpc).1
  | other hm =>
    cases hm with
    | procs ha => rcases ha with ⟨_, ha⟩ | ⟨_, ha⟩ <;> cases ha

/-- **One core, tracked exactly.** While `try_wait` reports no error, at most one
child of `start` is unreaped, the core entry is about the latest child and says
stopped only when every child is reaped, exactly one thread watches a running
core, `start` never spawns a second core, and no monitor finds or clears the
entry of another generation. -/
theorem one_core_tracked (h : (supervisor env).ReachableBy NoWaitError s) :
    CoreTracked s ∧ ∀ a s', step env s a = some s' → SpawnsAlone s s' ∧ ClearsOwn s s' a :=
  ⟨coreTracked_of_reachable h, fun _ _ hs =>
    ⟨spawnsAlone_of_reachable h hs, clearsOwn_of_reachable h.reachable hs⟩⟩

namespace Client

/-- The core crashed, its owner starts it again, and the second core runs. -/
def restart : List Action :=
  [boot, connect 0 helloText, own 0, start 0 7, perish 0, start 0 7].flatten

end Client

theorem one_core_tracked_restart : ∃ s, (supervisor Client.env).ReachableBy NoWaitError s ∧
    s.core = .running ⟨7, 5000, false⟩ ∧ s.nGen = 2 ∧ CoreTracked s := by
  obtain ⟨s, hs, hp⟩ := exists_reachableBy Client.env NoWaitError Client.restart
    (fun s => s.core == .running ⟨7, 5000, false⟩ && s.nGen == 2) (by decide +kernel)
  rw [Bool.and_eq_true, beq_iff_eq, beq_iff_eq] at hp
  exact ⟨s, hs, hp.1, hp.2, (one_core_tracked hs).1⟩

end EasyTierMac.Supervisor
