import EasyTierMac.Supervisor.Frames
import EasyTierMac.Lifecycle.HookCalls

/-!
# The supervisor refines the core lifecycle

`lifeView` forgets sockets, leases, lines, sweeps and hook threads. Every step
of the supervisor is invisible there or a step of `Lifecycle.machine`
(`lifecycle`), so the invariants of the lifecycle hold of the supervisor.
-/

namespace EasyTierMac.Supervisor

open Function (update)
open Lifecycle (Call Phase Mon Act)

/-! ## The view -/

/-- What a connection thread is doing to the core. -/
def ConnPc.call : ConnPc → Call
  | .spawnMonitor g => .spawned g
  | .upHook g => .raising g
  | .stopWait r g => .stopping r g
  | .stopHook r g => .lowering r g
  | .sweep .. | .join _ | .exit => .torn
  | _ => .idle

def MonPc.phase : MonPc → Phase
  | .absent => .absent
  | .tryWait => .tryWait
  | .check => .check
  | .escalate => .escalate
  | .arm => .arm
  | .sendKill => .sendKill
  | .sleep => .sleep
  | .exitLock _ => .exiting
  | .push _ | .pushWrite .. | .downHook => .reporting
  | .sweepLock | .sweep _ | .done => .over

theorem MonPc.absent_iff {pc : MonPc} : pc.phase = .absent ↔ pc = .absent := by
  cases pc <;> simp [phase]

def Monitor.view (m : Monitor) : Mon where
  phase := m.pc.phase
  pid := m.pid
  termDeadline := m.termDeadline
  killSent := m.killSent

namespace Sys

variable (s : Sys)

def lifeView : Lifecycle.State where
  core := s.core
  nGen := s.nGen
  child := s.children
  mon g := (s.monitors g).view
  call c := (s.conns c).pc.call
  -- the janitor's calls mirror no transition
  hookCalls := s.hookCalls.filter fun x => x.gen.isSome
  stopCalls := s.stopCalls
  signals := s.signals
  now := s.now

/-! ## The view of each update -/

variable {s} {c : ConnId} {g : Gen}

theorem lifeView_modConn (f : Conn → Conn) :
    (s.modConn c f).lifeView = s.lifeView.setCall c (f (s.conns c)).pc.call := by
  have hcall : ∀ d, (update s.conns c (f (s.conns c)) d).pc.call =
      update (fun d => (s.conns d).pc.call) c (f (s.conns c)).pc.call d := by
    intro d
    by_cases hd : d = c
    · rw [hd, Function.update_self, Function.update_self]
    · rw [Function.update_of_ne hd, Function.update_of_ne hd]
  unfold lifeView modConn
  simp only [hcall]
  rfl

theorem lifeView_setPc (pc : ConnPc) : (s.setPc c pc).lifeView = s.lifeView.setCall c pc.call :=
  lifeView_modConn _

/-- No call of the connection begins or ends. -/
theorem lifeView_modConn_of_call {f : Conn → Conn}
    (hf : (f (s.conns c)).pc.call = (s.conns c).pc.call) :
    (s.modConn c f).lifeView = s.lifeView := by
  rw [lifeView_modConn, hf]
  unfold Lifecycle.State.setCall
  rw [show s.lifeView.call = fun d => (s.conns d).pc.call from rfl, Function.update_eq_self]
  rfl

/-- The thread moves, after an update that the view does not show, and no call of
its own begins or ends. -/
theorem lifeView_setPc_quiet {t : Sys} {pc : ConnPc} (ht : t.lifeView = s.lifeView)
    (hpc : pc.call = s.lifeView.call c) : (t.setPc c pc).lifeView = s.lifeView := by
  rw [← ht] at hpc
  rw [← ht]
  exact lifeView_modConn_of_call hpc

theorem lifeView_write (l : Line) : (s.write c l).lifeView = s.lifeView :=
  lifeView_modConn_of_call rfl

theorem lifeView_setBuf (rest : List UInt8) : (s.setBuf c rest).lifeView = s.lifeView :=
  lifeView_modConn_of_call rfl

theorem lifeView_modMon (f : Monitor → Monitor) : (s.modMon g f).lifeView =
    { s.lifeView with mon := update s.lifeView.mon g (f (s.monitors g)).view } := by
  have hmon : ∀ k, (update s.monitors g (f (s.monitors g)) k).view =
      update (fun k => (s.monitors k).view) g (f (s.monitors g)).view k := by
    intro k
    by_cases hk : k = g
    · rw [hk, Function.update_self, Function.update_self]
    · rw [Function.update_of_ne hk, Function.update_of_ne hk]
  unfold lifeView modMon
  simp only [hmon]

theorem lifeView_setMonPc (pc : MonPc) :
    (s.setMonPc g pc).lifeView = s.lifeView.setPhase g pc.phase := lifeView_modMon _

/-- The monitor moves within a phase, after an update that the view does not show. -/
theorem lifeView_setMonPc_quiet {t : Sys} {pc : MonPc} (ht : t.lifeView = s.lifeView)
    (hpc : pc.phase = (s.lifeView.mon g).phase) : (t.setMonPc g pc).lifeView = s.lifeView := by
  rw [lifeView_setMonPc, ht, hpc]
  unfold Lifecycle.State.setPhase
  rw [show ({ s.lifeView.mon g with phase := (s.lifeView.mon g).phase } : Mon) = s.lifeView.mon g
    from rfl, Function.update_eq_self]

theorem lifeView_runHook (env : Env) (call : HookCall) (joiner : Option ConnId) (st : Stat) :
    (s.runHook env call joiner st).lifeView =
      if call.gen.isSome then s.lifeView.addHook call else s.lifeView := by
  have hfilter : (s.hookCalls ++ [call]).filter (fun x => x.gen.isSome) =
      if call.gen.isSome then s.hookCalls.filter (fun x => x.gen.isSome) ++ [call]
      else s.hookCalls.filter fun x => x.gen.isSome := by
    rw [List.filter_append]
    cases hg : call.gen.isSome <;> simp [hg]
  unfold runHook
  dsimp only
  split <;> unfold lifeView <;> simp only [hfilter] <;> split <;> rfl

/-- A call of `run_hook` that mirrors a transition shows. -/
theorem lifeView_runHook_some (env : Env) (ev : HookEvent) (r : Option HookReason) (g : Gen)
    (joiner : Option ConnId) (st : Stat) :
    (s.runHook env ⟨ev, r, some g⟩ joiner st).lifeView = s.lifeView.addHook ⟨ev, r, some g⟩ := by
  rw [lifeView_runHook]
  rfl

theorem lifeView_afterStop (r : HookReason) (b : Bool) (hook : Option HookId)
    (about : Option Report) :
    (s.afterStop c r b hook about).lifeView = s.lifeView.setCall c (.after r) := by
  cases r <;> exact lifeView_setPc _

end Sys

theorem Swept.lifeView {env : Env} {s s' : Sys} (h : Swept env s s') : s'.lifeView = s.lifeView := by
  cases h with
  | quiet => rfl
  | hook st => rw [Sys.lifeView_runHook, if_neg (by simp)]

/-! ## Every step -/

/-- What a lifecycle step says about the supervisor step behind it. -/
def LifeLabel (s : Sys) (a : Action) : Act → Prop
  | .waitErr g => a = .monitor g .failed ∧ (s.monitors g).pc = .tryWait
  | .mark c r => (∃ ans, a = .conn c ans) ∧ (s.conns c).pc = .stopLock r
  | _ => True

/-- A step is invisible to the lifecycle or a lifecycle step. -/
def LifeStep (s : Sys) (a : Action) (s' : Sys) : Prop :=
  s'.lifeView = s.lifeView ∨
    ∃ b, LifeLabel s a b ∧ Lifecycle.Step s.lifeView b s'.lifeView

variable {env : Env} {s s' : Sys}

theorem Sys.pidFree_spec {pid : Int32} (h : s.pidFree pid = true) :
    ∀ g < s.nGen, (s.children g).life ≠ .reaped → (s.children g).pid ≠ pid := by
  intro g hg hlife
  have hfree := List.all_eq_true.mp h g (List.mem_range.mpr hg)
  simp only [Bool.or_eq_true, beq_iff_eq, bne_iff_ne] at hfree
  exact hfree.resolve_left hlife

theorem Sys.stopRequestedFor_spec {pid : Int32} (h : s.stopRequestedFor pid = true) :
    s.lifeView.Requested pid := by
  unfold Sys.stopRequestedFor at h
  split at h
  · next run hcore =>
    simp only [Bool.and_eq_true, beq_iff_eq] at h
    exact ⟨run, hcore, h.1, h.2⟩
  · cases h

theorem ConnMove.lifeStep {c : ConnId} {ans : Answer} (h : ConnMove env s c ans s') :
    LifeStep s (.conn c ans) s' := by
  have hcall : ∀ {pc : ConnPc}, (s.conns c).pc = pc → s.lifeView.call c = pc.call :=
    fun hpc => congrArg ConnPc.call hpc
  -- the view after an update it does not show, and a move to `pc` without a call
  have quiet : ∀ {t : Sys} {pc pc' : ConnPc}, (s.conns c).pc = pc' → t.lifeView = s.lifeView →
      pc.call = pc'.call → LifeStep s (.conn c ans) (t.setPc c pc) :=
    fun hpc ht he => .inl (Sys.lifeView_setPc_quiet ht (he.trans (hcall hpc).symm))
  cases h with
  | gate hpc | helloFail hpc | kickSkip hpc | helloSnap _ hpc | loopFail hpc
  | statusSnap _ hpc | endedKicked hpc | endedOwner hpc | giveUpOther _ hpc | busy _ hpc
  | startRunning _ hpc | startFailed _ hpc | join hpc | reject hpc => exact quiet hpc rfl rfl
  | helloDrop hpc | helloRefuse hpc | loopEnd hpc | loopError hpc | loopStart hpc
  | loopStatus hpc | loopStop hpc => exact quiet hpc (Sys.lifeView_setBuf _) rfl
  | refused hpc | helloWrite hpc | reply hpc | kickWrite hpc =>
    exact quiet hpc (Sys.lifeView_write _) rfl
  | refill => exact .inl (Sys.lifeView_modConn_of_call rfl)
  | loopBlank => exact .inl (Sys.lifeView_setBuf _)
  | stopAgain => exact .inl rfl
  | exit => exact .inl rfl
  | giveUp _ hpc => exact quiet (t := s.clearOwner) hpc rfl rfl
  | @helloAccept l rest takeover hpc =>
    refine .inl ((Sys.lifeView_modConn_of_call ?_).trans (Sys.lifeView_setBuf (s := s) rest))
    show Call.idle = ((s.setBuf c rest).conns c).pc.call
    simp only [Sys.setBuf, Sys.modConn, Function.update_self, hpc, ConnPc.call]
  | accept _ hpc => exact quiet hpc (Sys.lifeView_modConn_of_call rfl) rfl
  | @takeover _ old _ hpc =>
    have hkick : (s.kick old.conn).lifeView = s.lifeView := Sys.lifeView_modConn_of_call rfl
    have hset : ((s.kick old.conn).setOwner c).lifeView = (s.kick old.conn).lifeView :=
      Sys.lifeView_modConn_of_call rfl
    exact quiet hpc (hset.trans hkick) rfl
  | kickShutdown hpc => exact quiet hpc (Sys.lifeView_modConn_of_call rfl) rfl
  | @spawn pid port hlock hpc hcore hpid =>
    refine .inr ⟨.spawn c pid port, trivial, ?_⟩
    rw [Sys.lifeView_setPc]
    exact .spawn (hcall hpc) hcore (Sys.pidFree_spec hpid)
  | @spawnMonitor _ g hpc =>
    refine .inr ⟨.monitor c, trivial, ?_⟩
    unfold Sys.spawnMonitor
    rw [Sys.lifeView_setPc, Sys.lifeView_modMon]
    exact .monitor (hcall hpc)
  | @upHook st g hpc =>
    refine .inr ⟨.upHook c, trivial, ?_⟩
    rw [Sys.lifeView_setPc, Sys.lifeView_runHook_some]
    exact .upHook (hcall hpc)
  | @stopIdle _ r hlock hpc hcore =>
    refine .inr ⟨.noStop c r, trivial, ?_⟩
    rw [Sys.lifeView_afterStop]
    exact .noStop (hcall hpc) hcore
  | @stopMark _ r run hlock hpc hcore =>
    refine .inr ⟨.mark c r, ⟨⟨_, rfl⟩, hpc⟩, ?_⟩
    rw [Sys.lifeView_setPc]
    exact .mark (hcall hpc) hcore
  | @stopSeen _ r g hlock hpc hcore =>
    refine .inr ⟨.seen c, trivial, ?_⟩
    rw [Sys.lifeView_setPc]
    exact .seen (hcall hpc) hcore
  | @stopHook st r g hpc =>
    refine .inr ⟨.downHook c, trivial, ?_⟩
    rw [Sys.lifeView_afterStop, Sys.lifeView_runHook_some]
    exact .downHook (hcall hpc)
  | sweep hpc hsw => exact quiet hpc (sweepStep_swept hsw).lifeView rfl
  | swept hpc hsw => exact quiet hpc (sweepStep_swept hsw).lifeView rfl

theorem MonMove.lifeStep {g : Gen} {ans : Answer} (h : MonMove env s g ans s') :
    LifeStep s (.monitor g ans) s' := by
  have hphase : ∀ {pc : MonPc}, (s.monitors g).pc = pc → (s.lifeView.mon g).phase = pc.phase :=
    fun hpc => congrArg MonPc.phase hpc
  -- the view after an update it does not show, and a move to `pc` within a phase
  have quiet : ∀ {t : Sys} {pc pc' : MonPc}, (s.monitors g).pc = pc' →
      t.lifeView = s.lifeView → pc.phase = pc'.phase → LifeStep s (.monitor g ans)
        (t.setMonPc g pc) :=
    fun hpc ht he => .inl (Sys.lifeView_setMonPc_quiet ht (he.trans (hphase hpc).symm))
  cases h with
  | pushNone _ hpc | push _ hpc | sweepSkip _ hpc => exact quiet hpc rfl rfl
  | pushWrite hpc => exact quiet hpc (Sys.lifeView_write _) rfl
  | sweepLock _ hpc => exact quiet (t := s.setLocked (some g)) hpc rfl rfl
  | sweep hpc hsw => exact quiet hpc (sweepStep_swept hsw).lifeView rfl
  | @swept _ sw s₁ hpc hsw =>
    exact quiet (t := s₁.setLocked none) hpc (sweepStep_swept hsw).lifeView rfl
  | poll hpc hlife =>
    refine .inr ⟨.poll g, trivial, ?_⟩
    rw [Sys.lifeView_setMonPc]
    exact .poll (hphase hpc) hlife
  | reap hpc hlife =>
    refine .inr ⟨.reap g, trivial, ?_⟩
    rw [Sys.lifeView_setMonPc]
    exact .reap (hphase hpc) hlife
  | waitErr hpc =>
    refine .inr ⟨.waitErr g, ⟨rfl, hpc⟩, ?_⟩
    rw [Sys.lifeView_setMonPc]
    exact .waitErr (hphase hpc)
  | checkYes _ hpc hreq =>
    refine .inr ⟨.checkYes g, trivial, ?_⟩
    rw [Sys.lifeView_setMonPc]
    exact .checkYes (hphase hpc) (Sys.stopRequestedFor_spec hreq)
  | checkNo _ hpc =>
    refine .inr ⟨.checkNo g, trivial, ?_⟩
    rw [Sys.lifeView_setMonPc]
    exact .checkNo (hphase hpc)
  | term hpc hdl =>
    refine .inr ⟨.term g, trivial, ?_⟩
    rw [Sys.lifeView_setMonPc]
    exact .term (hphase hpc) hdl
  | decideKill hpc hdl hsent hnow =>
    refine .inr ⟨.decideKill g, trivial, ?_⟩
    rw [Sys.lifeView_setMonPc]
    exact .decideKill (hphase hpc) hdl hsent hnow
  | decideWait hpc =>
    refine .inr ⟨.decideWait g, trivial, ?_⟩
    rw [Sys.lifeView_setMonPc]
    exact .decideWait (hphase hpc)
  | arm hpc =>
    refine .inr ⟨.arm g, trivial, ?_⟩
    unfold Sys.monArm
    rw [Sys.lifeView_modMon]
    exact .arm (hphase hpc)
  | kill hpc =>
    refine .inr ⟨.kill g, trivial, ?_⟩
    unfold Sys.monSendKill
    rw [Sys.lifeView_modMon]
    exact .kill (hphase hpc)
  | wake _ hpc =>
    refine .inr ⟨.wake g, trivial, ?_⟩
    rw [Sys.lifeView_setMonPc]
    exact .wake (hphase hpc)
  | @exit _ info run _ hpc hcore hpid =>
    refine .inr ⟨.exit g, trivial, ?_⟩
    rw [Sys.lifeView_setMonPc, show (if run.stopRequested then MonPc.done else .push info).phase =
      if run.stopRequested then Phase.over else .reporting from by split <;> rfl]
    exact .exit (hphase hpc) hcore hpid
  | exitOther _ hpc hother =>
    refine .inr ⟨.exitOther g, trivial, ?_⟩
    rw [Sys.lifeView_setMonPc]
    exact .exitOther (hphase hpc) hother
  | downHook hpc =>
    refine .inr ⟨.exitHook g, trivial, ?_⟩
    rw [Sys.lifeView_setMonPc, Sys.lifeView_runHook_some]
    exact .exitHook (hphase hpc)

theorem OtherMove.lifeStep {a : Action} (hA : Accepted s) (h : OtherMove env s a s') :
    LifeStep s a s' := by
  cases h with
  | main hmain hsw => exact .inl (sweepStep_swept hsw).lifeView
  | serve hmain hsw => exact .inl (sweepStep_swept hsw).lifeView
  | timerOwner | timerNoOwner | timerExit | hookLaunch | hookEnd | procs => exact .inl rfl
  | arrive | hangup => exact .inl (Sys.lifeView_modConn_of_call rfl)
  | @accept uid hmain =>
    refine .inl ?_
    have hidle : (s.conns s.nConns).pc.call = .idle := by rw [hA.closed _ (Nat.le_refl _)]; rfl
    exact Sys.lifeView_modConn_of_call (s := s) (c := s.nConns)
      (f := fun _ => { pc := .auth, uid := uid }) hidle.symm
  | @die g info hlife => exact .inr ⟨.die g, trivial, .die hlife⟩
  | tick => exact .inr ⟨.tick, trivial, .tick⟩

/-- **The supervisor refines the core lifecycle.** -/
def lifecycle (env : Env) : Transition.Refinement (supervisor env) Lifecycle.machine where
  view := Sys.lifeView
  label := LifeLabel
  init := rfl
  step hr hs := by
    cases (step_move hs).2 with
    | conn h => exact h.lifeStep
    | monitor h => exact h.lifeStep
    | other h => exact h.lifeStep (.of_reachable hr)

end EasyTierMac.Supervisor
