import EasyTierMac.Tenure.Ownership
import EasyTierMac.Supervisor.Frames

/-!
# The supervisor refines the lease

`leaseView` keeps the owner slot and, of each connection, its id, its flags and
the `Stage` of its thread. Every step of the supervisor is invisible there or a
step of `Tenure.machine` (`lease`). A connection is `driving` from the line that
carries `start` or `stop` to the critical section that carries it out.
-/

namespace EasyTierMac.Supervisor

open Function (update)
open Tenure (Stage Member Slot Act)
open Rust (trim)

/-! ## The view -/

/-- What a connection thread does with the lease. -/
def ConnPc.stage : ConnPc → Stage
  | .auth | .readHello => .entering
  | .refuse _ | .closed => .outside
  | .lease takeover => .asking takeover
  | .kickWrite _ | .kickShutdown _ | .helloSnap | .helloWrite _ | .loop | .reply _
  | .spawnMonitor _ | .upHook _ | .statusSnap => .holding
  | .startLock => .driving
  | .stopLock r => if r = .ownerDrop then .torn else .driving
  | .stopWait r _ | .stopHook r _ => if r = .ownerDrop then .torn else .holding
  | .ended => .ended
  | .giveUp => .leaving
  | .sweep .. | .join _ | .exit => .torn

def Conn.member (k : Conn) : Member where
  stage := k.pc.stage
  id := k.id
  kicked := k.kicked
  granted := k.granted

def OwnerSlot.slot (o : OwnerSlot) : Slot ConnId := ⟨o.id, o.conn⟩

namespace Sys

variable (s : Sys)

def leaseView : Tenure.State ConnId where
  owner := s.owner.map OwnerSlot.slot
  nextId := s.nextId
  member c := (s.conns c).member
  expired := s.timer == .exiting

/-- The command that the loop of connection `c` carries out next: its next
received line is complete, not blank, and decodes. -/
def nextCmd (env : Env) (c : ConnId) : Option Cmd :=
  match s.readLine c with
  | some (.line l, _) => if (trim l).isEmpty then none else (decodeCmd env.fromStr l).toOption
  | _ => none

theorem leaseView_owner {s : Sys} {o : Option OwnerSlot} (h : s.owner = o) :
    s.leaseView.owner = o.map OwnerSlot.slot := congrArg (Option.map OwnerSlot.slot) h

/-! ## The view of each update -/

variable {s} {c : ConnId}

theorem leaseView_modConn (f : Conn → Conn) : (s.modConn c f).leaseView =
    { s.leaseView with member := update s.leaseView.member c (f (s.conns c)).member } := by
  have hmem : ∀ d, (update s.conns c (f (s.conns c)) d).member =
      update (fun d => (s.conns d).member) c (f (s.conns c)).member d := by
    intro d
    by_cases hd : d = c
    · rw [hd, Function.update_self, Function.update_self]
    · rw [Function.update_of_ne hd, Function.update_of_ne hd]
  unfold leaseView modConn
  simp only [hmem]

theorem leaseView_setPc (pc : ConnPc) :
    (s.setPc c pc).leaseView = s.leaseView.setStage c pc.stage := leaseView_modConn _

/-- The connection does not change what it does with the lease. -/
theorem leaseView_modConn_quiet {f : Conn → Conn}
    (hf : (f (s.conns c)).member = (s.conns c).member) :
    (s.modConn c f).leaseView = s.leaseView := by
  rw [leaseView_modConn, hf]
  rw [show (s.conns c).member = s.leaseView.member c from rfl, Function.update_eq_self]

/-- The thread moves, after an update that the view does not show. -/
theorem leaseView_setPc_of {t : Sys} {pc : ConnPc} (ht : t.leaseView = s.leaseView) :
    (t.setPc c pc).leaseView = s.leaseView.setStage c pc.stage := by
  rw [leaseView_setPc, ht]

theorem leaseView_setPc_quiet {t : Sys} {pc : ConnPc} (ht : t.leaseView = s.leaseView)
    (hpc : pc.stage = (s.conns c).pc.stage) : (t.setPc c pc).leaseView = s.leaseView := by
  rw [leaseView_setPc_of ht, hpc]
  exact Tenure.State.setStage_eq_self rfl

theorem leaseView_write (s : Sys) {c : ConnId} (l : Line) : (s.write c l).leaseView = s.leaseView :=
  leaseView_modConn_quiet rfl

theorem leaseView_setBuf (rest : List UInt8) : (s.setBuf c rest).leaseView = s.leaseView :=
  leaseView_modConn_quiet rfl

theorem leaseView_takeId (takeover : Bool) : (s.takeId c takeover).leaseView =
    { s.leaseView with nextId := s.leaseView.nextId + 1 }.modify c fun m =>
      { m with stage := .asking takeover, id := s.leaseView.nextId } := leaseView_modConn _

theorem leaseView_kick (old : ConnId) : (s.kick old).leaseView =
    s.leaseView.modify old fun m => { m with kicked := true } := leaseView_modConn _

/-- The lease is granted, and the thread goes on to what comes before its loop. -/
theorem leaseView_grant {pc : ConnPc} (hpc : pc.stage = .holding) :
    ((s.setOwner c).setPc c pc).leaseView = s.leaseView.grant c := by
  rw [leaseView_setPc, hpc, show (s.setOwner c).leaseView = _ from leaseView_modConn _]
  unfold Tenure.State.setStage Tenure.State.modify Tenure.State.grant
  dsimp only
  rw [Function.update_self, Function.update_idem]
  rfl

theorem leaseView_runHook (s : Sys) (env : Env) (call : HookCall) (joiner : Option ConnId)
    (st : Stat) :
    (s.runHook env call joiner st).leaseView = s.leaseView := by
  obtain ⟨hooks, n, he⟩ := s.runHook_eq env call joiner st
  rw [he]
  rfl

end Sys

theorem sweepStep_leaseView {env : Env} {s s' : Sys} {sw : Sweep} {ans : Answer}
    {next : Option Sweep} (h : sweepStep env s sw ans = some (s', next)) :
    s'.leaseView = s.leaseView := by
  obtain ⟨hooks, n, calls, rfl⟩ := sweepStep_eq h
  rfl

/-! ## Every step -/

/-- What a step of the lease says about the supervisor step behind it. -/
def LeaseLabel (env : Env) (s : Sys) (a : Action) : Act ConnId → Prop
  | .accept c => ∃ ans t, a = .conn c ans ∧ (s.conns c).pc = .lease t ∧ s.owner = none
  | .takeover c d => ∃ ans o, a = .conn c ans ∧ (s.conns c).pc = .lease true ∧
      s.owner = some o ∧ o.conn = d
  | .drive c => ∃ ans cmd, a = .conn c ans ∧ (s.conns c).pc = .loop ∧
      s.nextCmd env c = some cmd ∧ (cmd = .start ∨ cmd = .stop)
  | _ => True

/-- A step is invisible to the lease or a step of the lease. -/
def LeaseStep (env : Env) (s : Sys) (a : Action) (s' : Sys) : Prop :=
  s'.leaseView = s.leaseView ∨
    ∃ b, LeaseLabel env s a b ∧ Tenure.Step s.leaseView b s'.leaseView

variable {env : Env} {s s' : Sys}

theorem Sys.nextCmd_eq {c : ConnId} {l : Rust.Text} {rest : List UInt8} {cmd : Cmd}
    (hline : s.readLine c = some (.line l, rest)) (hblank : (trim l).isEmpty = false)
    (hcmd : decodeCmd env.fromStr l = .ok cmd) : s.nextCmd env c = some cmd := by
  simp [Sys.nextCmd, hline, hblank, hcmd, Except.toOption]

/-- `stop` returns: the lease is driven no more, unless this was the teardown. -/
theorem afterStopPc_stage (r : HookReason) (b : Bool) (hook : Option HookId)
    (about : Option Report) :
    (Sys.afterStopPc r b hook about).stage = if r = .ownerDrop then .torn else .holding := by
  cases r <;> rfl

theorem ConnMove.leaseStep {c : ConnId} {ans : Answer} (h : ConnMove env s c ans s') :
    LeaseStep env s (.conn c ans) s' := by
  have hst : ∀ {pc : ConnPc}, (s.conns c).pc = pc → (s.leaseView.member c).stage = pc.stage :=
    fun hpc => congrArg ConnPc.stage hpc
  -- the thread moves, after an update the view does not show: within a stage, or to another
  have quiet : ∀ {t : Sys} {pc pc' : ConnPc}, (s.conns c).pc = pc' → t.leaseView = s.leaseView →
      pc.stage = pc'.stage → LeaseStep env s (.conn c ans) (t.setPc c pc) :=
    fun hpc ht he => .inl (Sys.leaseView_setPc_quiet ht (he.trans (congrArg ConnPc.stage hpc).symm))
  have move : ∀ {t : Sys} {pc : ConnPc} {b : Act ConnId}, t.leaseView = s.leaseView →
      LeaseLabel env s (.conn c ans) b →
      Tenure.Step s.leaseView b (s.leaseView.setStage c pc.stage) →
      LeaseStep env s (.conn c ans) (t.setPc c pc) :=
    fun ht hl hs => .inr ⟨_, hl, by rw [Sys.leaseView_setPc_of ht]; exact hs⟩
  cases h with
  | gate hpc | kickSkip hpc | helloSnap _ hpc | statusSnap _ hpc | join hpc => exact quiet hpc rfl rfl
  | refused hpc | kickWrite hpc | helloWrite hpc | reply hpc =>
    exact quiet hpc (Sys.leaseView_write _ _) rfl
  | loopError hpc | loopStatus hpc => exact quiet hpc (Sys.leaseView_setBuf _) rfl
  | kickShutdown hpc => exact quiet hpc (Sys.leaseView_modConn_quiet rfl) rfl
  | spawnMonitor hpc => exact quiet (t := s.modMon _ _) hpc rfl rfl
  | upHook hpc => exact quiet hpc (Sys.leaseView_runHook ..) rfl
  | sweep hpc hsw | swept hpc hsw => exact quiet hpc (sweepStep_leaseView hsw) rfl
  | stopSeen _ hpc => exact quiet hpc rfl rfl
  | stopHook hpc => exact quiet hpc (Sys.leaseView_runHook ..) (afterStopPc_stage ..)
  | refill => exact .inl (Sys.leaseView_modConn_quiet rfl)
  | loopBlank => exact .inl (Sys.leaseView_setBuf _)
  | stopAgain | exit => exact .inl rfl
  | reject hpc => exact move (b := .reject c) rfl trivial (.reject (hst hpc))
  | helloFail hpc => exact move (b := .reject c) rfl trivial (.reject (hst hpc))
  | helloDrop hpc | helloRefuse hpc =>
    exact move (b := .reject c) (Sys.leaseView_setBuf _) trivial (.reject (hst hpc))
  | @helloAccept l rest takeover hpc =>
    refine .inr ⟨.enlist c takeover, trivial, ?_⟩
    rw [Sys.leaseView_takeId, Sys.leaseView_setBuf]
    exact .enlist (hst hpc)
  | busy _ hpc => exact move (b := .refuse c) rfl trivial (.refuse (hst hpc))
  | @accept _ t _ hpc howner =>
    refine .inr ⟨.accept c, ⟨_, t, rfl, hpc, howner⟩, ?_⟩
    rw [Sys.leaseView_grant rfl]
    exact .accept (hst hpc) (Sys.leaseView_owner howner)
  | @takeover _ old _ hpc howner =>
    refine .inr ⟨.takeover c old.conn, ⟨_, old, rfl, hpc, howner, rfl⟩, ?_⟩
    rw [Sys.leaseView_grant rfl, Sys.leaseView_kick]
    exact .takeover (o := old.slot) (hst hpc) (Sys.leaseView_owner howner)
  | loopFail hpc => exact move (b := .finish c) rfl trivial (.finish (hst hpc))
  | loopEnd hpc => exact move (b := .finish c) (Sys.leaseView_setBuf _) trivial (.finish (hst hpc))
  | loopStart hpc hline hblank hcmd =>
    exact move (b := .drive c) (Sys.leaseView_setBuf _)
      ⟨_, _, rfl, hpc, Sys.nextCmd_eq hline hblank hcmd, .inl rfl⟩ (.drive (hst hpc))
  | loopStop hpc hline hblank hcmd =>
    exact move (b := .drive c) (Sys.leaseView_setBuf _)
      ⟨_, _, rfl, hpc, Sys.nextCmd_eq hline hblank hcmd, .inr rfl⟩ (.drive (hst hpc))
  | startRunning _ hpc => exact move (b := .drove c) rfl trivial (.drove (hst hpc))
  | startFailed _ hpc => exact move (b := .drove c) rfl trivial (.drove (hst hpc))
  | spawn _ hpc => exact move (t := s.spawnChild _ _) (b := .drove c) rfl trivial (.drove (hst hpc))
  | @stopIdle _ r _ hpc =>
    by_cases hr : r = .ownerDrop
    · subst hr
      exact quiet hpc rfl rfl
    · refine move (b := .drove c) rfl trivial ?_
      rw [afterStopPc_stage, if_neg hr]
      exact .drove ((hst hpc).trans (if_neg hr))
  | @stopMark _ r run _ hpc =>
    by_cases hr : r = .ownerDrop
    · subst hr
      exact quiet (t := s.markStop c _ run) hpc rfl rfl
    · refine move (t := s.markStop c r run) (b := .drove c) rfl trivial ?_
      rw [show (ConnPc.stopWait r (s.nGen - 1)).stage = .holding from if_neg hr]
      exact .drove ((hst hpc).trans (if_neg hr))
  | endedKicked hpc hk => exact move (b := .displaced c) rfl trivial (.displaced (hst hpc) hk)
  | endedOwner hpc hk => exact move (b := .leave c) rfl trivial (.leave (hst hpc) hk)
  | @giveUp _ o _ hpc howner hid =>
    refine .inr ⟨.release c, trivial, ?_⟩
    rw [Sys.leaseView_setPc]
    exact .release (o := o.slot) (hst hpc) (Sys.leaseView_owner howner) hid
  | giveUpOther _ hpc hid =>
    refine move (b := .releaseOther c) rfl trivial (.releaseOther (hst hpc) ?_)
    intro o ho
    obtain ⟨o', ho', rfl⟩ := Option.map_eq_some_iff.mp ho
    exact hid o' ho'

theorem MonMove.leaseView_eq {g : Gen} {ans : Answer} (h : MonMove env s g ans s') :
    s'.leaseView = s.leaseView := by
  cases h with
  | sweep hpc hsw | swept hpc hsw =>
    have he := sweepStep_leaseView hsw
    exact he
  | @downHook st hpc =>
    have he := s.leaseView_runHook env ⟨.down, some .coreExited, some g⟩ none st
    exact he
  | @pushWrite _ info c hpc =>
    have he := s.leaseView_write (c := c) ⟨.coreExited info.code info.signal, some (.stopped g)⟩
    exact he
  | _ => rfl

theorem OtherMove.leaseStep {a : Action} (hA : Accepted s) (h : OtherMove env s a s') :
    LeaseStep env s a s' := by
  cases h with
  | main hmain hsw =>
    have he := sweepStep_leaseView hsw
    exact .inl he
  | @serve _ _ s₁ hmain hsw =>
    refine .inr ⟨.watch, trivial, ?_⟩
    rw [← sweepStep_leaseView hsw]
    exact .watch
  | timerOwner hlock htimer =>
    refine .inl ?_
    unfold Sys.leaseView
    simp [htimer]
  | timerNoOwner hlock htimer hdue howner =>
    exact .inr ⟨.expire, trivial, .expire (Sys.leaseView_owner howner)⟩
  | timerExit | hookLaunch | hookEnd | die | tick | procs => exact .inl rfl
  | arrive | hangup => exact .inl (Sys.leaseView_modConn_quiet rfl)
  | @accept uid hmain =>
    refine .inr ⟨.enter s.nConns, trivial, ?_⟩
    have hout : (s.leaseView.member s.nConns).stage = .outside :=
      congrArg ConnPc.stage (hA.closed _ (Nat.le_refl _))
    have hview := Sys.leaseView_modConn (s := s) (c := s.nConns) fun _ => { pc := .auth, uid := uid }
    have hstep := Tenure.Step.enter hout
    unfold Tenure.State.modify at hstep
    exact hview ▸ hstep

/-- **The supervisor refines the lease.** -/
def lease (env : Env) : Transition.Refinement (supervisor env) (Tenure.machine ConnId) where
  view := Sys.leaseView
  label := LeaseLabel env
  init := rfl
  step hr hs := by
    cases (step_move hs).2 with
    | conn h => exact h.leaseStep
    | monitor h => exact .inl h.leaseView_eq
    | other h => exact h.leaseStep (.of_reachable hr)

theorem owned_of_reachable (h : (supervisor env).Reachable s) : Tenure.Owned s.leaseView :=
  .of_reachable ((lease env).reachable h)

end EasyTierMac.Supervisor
