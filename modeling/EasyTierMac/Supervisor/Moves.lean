import EasyTierMac.Supervisor.Main

/-!
# What a step can do

`step` inverted: one constructor for each way in which a step can go, with its
guards and the resulting state as a composition of the primitive updates. Every
proof about runs starts from `step_move` (`connStep_move`, `monStep_move`) and
never unfolds a step function.
-/

namespace EasyTierMac.Supervisor

open Rust (trim)

/-- What one call of a sweep does to the state: nothing, or a janitor hook. -/
inductive Swept (env : Env) (s : Sys) : Sys → Prop
  | quiet : Swept env s s
  | hook (st : Stat) : Swept env s (s.runHook env ⟨.down, some .janitor, none⟩ none st)

theorem sweepStep_swept {env : Env} {s s' : Sys} {sw : Sweep} {ans : Answer}
    {next : Option Sweep} (h : sweepStep env s sw ans = some (s', next)) : Swept env s s' := by
  unfold sweepStep at h
  split at h
  · cases h; exact .quiet
  · cases h; exact .quiet
  · split at h
    · cases h
    · cases h; exact .quiet
  · cases h; exact .quiet
  · cases h; exact .hook _
  · cases h

/-- The moves of the thread of connection `c`. -/
inductive ConnMove (env : Env) (s : Sys) (c : ConnId) : Answer → Sys → Prop
  | gate {uid : UInt32} (hpc : (s.conns c).pc = .auth) (huid : (s.conns c).uid = some uid)
      (hauth : env.auth.allows uid = true) : ConnMove env s c .done (s.setPc c .readHello)
  | reject {ans : Answer} (hpc : (s.conns c).pc = .auth) : ConnMove env s c ans (s.setPc c .closed)
  | refill {n : Nat} (hpc : (s.conns c).pc = .readHello ∨ (s.conns c).pc = .loop)
      (hline : s.readLine c = none) (hn : 0 < n ∧ n ≤ (s.conns c).sock.length) :
      ConnMove env s c (.refill n)
        (s.modConn c fun k => { k with buf := k.buf ++ k.sock.take n, sock := k.sock.drop n })
  | helloFail (hpc : (s.conns c).pc = .readHello) : ConnMove env s c .failed (s.setPc c .closed)
  | helloDrop {rl : ReadLine} {rest : List UInt8} (hpc : (s.conns c).pc = .readHello)
      (hline : s.readLine c = some (rl, rest)) :
      ConnMove env s c .done ((s.setBuf c rest).setPc c .closed)
  | helloRefuse {rl : ReadLine} {rest : List UInt8} {ev : Event}
      (hpc : (s.conns c).pc = .readHello) (hline : s.readLine c = some (rl, rest)) :
      ConnMove env s c .done ((s.setBuf c rest).setPc c (.refuse ev))
  | helloAccept {l : Rust.Text} {rest : List UInt8} {takeover : Bool}
      (hpc : (s.conns c).pc = .readHello) (hline : s.readLine c = some (.line l, rest))
      (hcmd : decodeCmd env.fromStr l = .ok (.hello PROTO_VERSION takeover)) :
      ConnMove env s c .done ((s.setBuf c rest).takeId c takeover)
  | refused {ans : Answer} {ev : Event} (hpc : (s.conns c).pc = .refuse ev) :
      ConnMove env s c ans ((s.write c ⟨ev, none⟩).setPc c .closed)
  | busy {ans : Answer} {o : OwnerSlot} (hlock : s.locked = none)
      (hpc : (s.conns c).pc = .lease false) (howner : s.owner = some o) :
      ConnMove env s c ans (s.setPc c (.refuse (.busy true)))
  | accept {ans : Answer} {takeover : Bool} (hlock : s.locked = none)
      (hpc : (s.conns c).pc = .lease takeover) (howner : s.owner = none) :
      ConnMove env s c ans ((s.setOwner c).setPc c .helloSnap)
  | takeover {ans : Answer} {old : OwnerSlot} (hlock : s.locked = none)
      (hpc : (s.conns c).pc = .lease true) (howner : s.owner = some old) :
      ConnMove env s c ans (((s.kick old.conn).setOwner c).setPc c (.kickWrite old.conn))
  | kickWrite {old : ConnId} (hpc : (s.conns c).pc = .kickWrite old) :
      ConnMove env s c .done ((s.write old ⟨.kicked, none⟩).setPc c (.kickShutdown old))
  | kickSkip {old : ConnId} (hpc : (s.conns c).pc = .kickWrite old) :
      ConnMove env s c .failed (s.setPc c (.kickShutdown old))
  | kickShutdown {old : ConnId} {n : Nat} (hpc : (s.conns c).pc = .kickShutdown old) :
      ConnMove env s c (.keep n)
        ((s.modConn old fun k => { k with closed := true, sock := k.sock.take n }).setPc c
          .helloSnap)
  | helloSnap {ans : Answer} (hlock : s.locked = none) (hpc : (s.conns c).pc = .helloSnap) :
      ConnMove env s c ans (s.setPc c (.helloWrite
        ⟨.hello PROTO_VERSION env.version s.coreSnapshot.1 s.coreSnapshot.2.2, s.report⟩))
  | helloWrite {ans : Answer} {l : Line} (hpc : (s.conns c).pc = .helloWrite l) :
      ConnMove env s c ans ((s.write c l).setPc c .loop)
  | loopFail (hpc : (s.conns c).pc = .loop) : ConnMove env s c .failed (s.setPc c .ended)
  | loopEnd {rl : ReadLine} {rest : List UInt8} (hpc : (s.conns c).pc = .loop)
      (hline : s.readLine c = some (rl, rest)) :
      ConnMove env s c .done ((s.setBuf c rest).setPc c .ended)
  | loopBlank {l : Rust.Text} {rest : List UInt8} (hpc : (s.conns c).pc = .loop)
      (hline : s.readLine c = some (.line l, rest)) (hblank : (trim l).isEmpty = true) :
      ConnMove env s c .done (s.setBuf c rest)
  | loopError {l : Rust.Text} {rest : List UInt8} {code msg : String}
      (hpc : (s.conns c).pc = .loop) (hline : s.readLine c = some (.line l, rest)) :
      ConnMove env s c .done ((s.setBuf c rest).setPc c (.reply ⟨.error code msg, none⟩))
  | loopStart {l : Rust.Text} {rest : List UInt8} (hpc : (s.conns c).pc = .loop)
      (hline : s.readLine c = some (.line l, rest))
      (hblank : (trim l).isEmpty = false)
      (hcmd : decodeCmd env.fromStr l = .ok .start) :
      ConnMove env s c .done ((s.setBuf c rest).setPc c .startLock)
  | loopStatus {l : Rust.Text} {rest : List UInt8} (hpc : (s.conns c).pc = .loop)
      (hline : s.readLine c = some (.line l, rest))
      (hblank : (trim l).isEmpty = false)
      (hcmd : decodeCmd env.fromStr l = .ok .status) :
      ConnMove env s c .done ((s.setBuf c rest).setPc c .statusSnap)
  | loopStop {l : Rust.Text} {rest : List UInt8} (hpc : (s.conns c).pc = .loop)
      (hline : s.readLine c = some (.line l, rest))
      (hblank : (trim l).isEmpty = false)
      (hcmd : decodeCmd env.fromStr l = .ok .stop) :
      ConnMove env s c .done ((s.setBuf c rest).setPc c (.stopLock .requested))
  | startRunning {r : Running} (hlock : s.locked = none) (hpc : (s.conns c).pc = .startLock)
      (hcore : s.core = .running r) :
      ConnMove env s c .done (s.setPc c (.reply ⟨.coreStarted r.pid r.rpcPort, s.report⟩))
  | startFailed {ans : Answer} {msg : String} (hlock : s.locked = none)
      (hpc : (s.conns c).pc = .startLock) (hcore : s.core = .stopped) :
      ConnMove env s c ans (s.setPc c (.reply ⟨.error "spawn_failed" msg, none⟩))
  | spawn {pid : Int32} {port : UInt16} (hlock : s.locked = none)
      (hpc : (s.conns c).pc = .startLock) (hcore : s.core = .stopped)
      (hpid : s.pidFree pid = true) :
      ConnMove env s c (.spawn (.child pid port))
        ((s.spawnChild pid port).setPc c (.spawnMonitor s.nGen))
  | spawnMonitor {ans : Answer} {g : Gen} (hpc : (s.conns c).pc = .spawnMonitor g) :
      ConnMove env s c ans (s.spawnMonitor c g)
  | upHook {st : Stat} {g : Gen} (hpc : (s.conns c).pc = .upHook g) :
      ConnMove env s c (.stat st) ((s.runHook env ⟨.up, none, some g⟩ none st).setPc c (.reply
        ⟨.coreStarted (s.children g).pid (s.children g).rpcPort, some (.running g)⟩))
  | statusSnap {ans : Answer} (hlock : s.locked = none) (hpc : (s.conns c).pc = .statusSnap) :
      ConnMove env s c ans (s.setPc c (.reply
        ⟨.status s.coreSnapshot.1 s.coreSnapshot.2.1 s.coreSnapshot.2.2, s.report⟩))
  | reply {ans : Answer} {l : Line} (hpc : (s.conns c).pc = .reply l) :
      ConnMove env s c ans ((s.write c l).setPc c .loop)
  | stopIdle {ans : Answer} {r : HookReason} (hlock : s.locked = none)
      (hpc : (s.conns c).pc = .stopLock r) (hcore : s.core = .stopped) :
      ConnMove env s c ans (s.afterStop c r false none s.report)
  | stopMark {ans : Answer} {r : HookReason} {run : Running} (hlock : s.locked = none)
      (hpc : (s.conns c).pc = .stopLock r) (hcore : s.core = .running run) :
      ConnMove env s c ans ((s.markStop c r run).setPc c (.stopWait r (s.nGen - 1)))
  | stopSeen {ans : Answer} {r : HookReason} {g : Gen} (hlock : s.locked = none)
      (hpc : (s.conns c).pc = .stopWait r g) (hcore : s.core = .stopped) :
      ConnMove env s c ans (s.setPc c (.stopHook r g))
  | stopAgain {ans : Answer} {r : HookReason} {g : Gen} (hlock : s.locked = none)
      (hpc : (s.conns c).pc = .stopWait r g) {run : Running} (hcore : s.core = .running run) :
      ConnMove env s c ans s
  | stopHook {st : Stat} {r : HookReason} {g : Gen} (hpc : (s.conns c).pc = .stopHook r g) :
      ConnMove env s c (.stat st)
        ((s.runHook env ⟨.down, some r, some g⟩ (if r = .ownerDrop then some c else none)
          st).afterStop c r true (s.hookHandle env st) (some (.stopped g)))
  | endedKicked {ans : Answer} (hpc : (s.conns c).pc = .ended)
      (hkicked : (s.conns c).kicked = true) : ConnMove env s c ans (s.setPc c .closed)
  | endedOwner {ans : Answer} (hpc : (s.conns c).pc = .ended)
      (hkicked : (s.conns c).kicked = false) : ConnMove env s c ans (s.setPc c .giveUp)
  | giveUp {ans : Answer} {o : OwnerSlot} (hlock : s.locked = none)
      (hpc : (s.conns c).pc = .giveUp) (howner : s.owner = some o) (hid : o.id = (s.conns c).id) :
      ConnMove env s c ans (s.clearOwner.setPc c (.stopLock .ownerDrop))
  | giveUpOther {ans : Answer} (hlock : s.locked = none) (hpc : (s.conns c).pc = .giveUp)
      (hid : ∀ o, s.owner = some o → o.id ≠ (s.conns c).id) :
      ConnMove env s c ans (s.setPc c (.stopLock .ownerDrop))
  | sweep {ans : Answer} {sw sw' : Sweep} {hook : Option HookId} {s₁ : Sys}
      (hpc : (s.conns c).pc = .sweep sw hook) (hsw : sweepStep env s sw ans = some (s₁, some sw')) :
      ConnMove env s c ans (s₁.setPc c (.sweep sw' hook))
  | swept {ans : Answer} {sw : Sweep} {hook : Option HookId} {s₁ : Sys}
      (hpc : (s.conns c).pc = .sweep sw hook) (hsw : sweepStep env s sw ans = some (s₁, none)) :
      ConnMove env s c ans (s₁.setPc c (.join hook))
  | join {ans : Answer} {hook : Option HookId} (hpc : (s.conns c).pc = .join hook)
      (hdone : ∀ h, hook = some h → (s.hooks h).pc.isFinished = true) :
      ConnMove env s c ans (s.setPc c .exit)
  | exit {ans : Answer} (hpc : (s.conns c).pc = .exit) :
      ConnMove env s c ans (s.exit (.conn c))

theorem lockSt_eq_some {s s' : Sys} {k : Option Sys} (h : s.lockSt k = some s') :
    s.locked = none ∧ k = some s' := by
  unfold Sys.lockSt at h
  split at h
  · next hl => exact ⟨Option.isNone_iff_eq_none.mp hl, h⟩
  · cases h

theorem refill_eq_some {s s' : Sys} {c : ConnId} {n : Nat} (h : s.refill c n = some s') :
    s.readLine c = none ∧ (0 < n ∧ n ≤ (s.conns c).sock.length) ∧
      s' = s.modConn c fun k => { k with buf := k.buf ++ k.sock.take n, sock := k.sock.drop n } := by
  unfold Sys.refill at h
  split at h
  · next hg => exact ⟨hg.1, hg.2, (Option.some.inj h).symm⟩
  · cases h

/-! ## Each function of a connection, inverted -/

section

variable {env : Env} {s s' : Sys} {c : ConnId} {ans : Answer}

theorem authStep_move (hpc : (s.conns c).pc = .auth) (h : s.authStep env c ans = some s') :
    ConnMove env s c ans s' := by
  unfold Sys.authStep at h
  split at h
  · split at h
    · next uid huid =>
      injection h with h
      subst h
      split
      · next hauth => exact .gate hpc huid hauth
      · exact .reject hpc
    · cases h; exact .reject hpc
  · cases h; exact .reject hpc
  · cases h

theorem readHelloStep_move (hpc : (s.conns c).pc = .readHello)
    (h : s.readHelloStep env c ans = some s') : ConnMove env s c ans s' := by
  unfold Sys.readHelloStep at h
  split at h
  · obtain ⟨hline, hn, rfl⟩ := refill_eq_some h
    exact .refill (.inl hpc) hline hn
  · cases h; exact .helloFail hpc
  · obtain ⟨⟨rl, rest⟩, hline, rfl⟩ := Option.map_eq_some_iff.mp h
    dsimp only
    unfold Sys.readHelloLine
    split
    · exact .helloDrop hpc hline
    · exact .helloDrop hpc hline
    · next l =>
      split
      · next proto takeover hcmd =>
        split
        · exact .helloRefuse hpc hline
        · next hproto =>
          rw [Decidable.not_not] at hproto
          exact .helloAccept hpc hline (hproto ▸ hcmd)
      · exact .helloRefuse hpc hline
      · exact .helloRefuse hpc hline
  · cases h

theorem leaseStep_move {takeover : Bool} (hpc : (s.conns c).pc = .lease takeover)
    (h : s.leaseStep c takeover = some s') : ConnMove env s c ans s' := by
  obtain ⟨hlock, h⟩ := lockSt_eq_some h
  injection h with h
  subst h
  cases howner : s.owner with
  | none => exact .accept hlock hpc howner
  | some old =>
    cases takeover with
    | false => exact .busy hlock hpc howner
    | true => exact .takeover hlock hpc howner

theorem loopStep_move (hpc : (s.conns c).pc = .loop) (h : s.loopStep env c ans = some s') :
    ConnMove env s c ans s' := by
  unfold Sys.loopStep at h
  split at h
  · obtain ⟨hline, hn, rfl⟩ := refill_eq_some h
    exact .refill (.inr hpc) hline hn
  · cases h; exact .loopFail hpc
  · obtain ⟨⟨rl, rest⟩, hline, rfl⟩ := Option.map_eq_some_iff.mp h
    dsimp only
    unfold Sys.loopLine
    split
    · exact .loopEnd hpc hline
    · exact .loopEnd hpc hline
    · split
      · next hblank => exact .loopBlank hpc hline hblank
      · next hblank =>
        rw [Bool.not_eq_true] at hblank
        split
        · exact .loopError hpc hline
        · next hcmd => exact .loopStart hpc hline hblank hcmd
        · next hcmd => exact .loopStatus hpc hline hblank hcmd
        · next hcmd => exact .loopStop hpc hline hblank hcmd
        · exact .loopError hpc hline
  · cases h

theorem startLock_move (hpc : (s.conns c).pc = .startLock)
    (h : s.startLock env c ans = some s') : ConnMove env s c ans s' := by
  obtain ⟨hlock, hs⟩ := lockSt_eq_some h
  clear h
  split at hs
  · next hcore => cases hs; exact .startRunning hlock hpc hcore
  · next hcore => cases hs; exact .startFailed hlock hpc hcore
  · next hcore => cases hs; exact .startFailed hlock hpc hcore
  · next hcore => cases hs; exact .startFailed hlock hpc hcore
  · next hcore =>
    split at hs
    · next hpid => cases hs; exact .spawn hlock hpc hcore hpid
    · cases hs
  · cases hs

theorem stopLock_move {r : HookReason} (hpc : (s.conns c).pc = .stopLock r)
    (h : s.stopLock c r = some s') : ConnMove env s c ans s' := by
  obtain ⟨hlock, h⟩ := lockSt_eq_some h
  injection h with h
  subst h
  cases hcore : s.core with
  | stopped => exact .stopIdle hlock hpc hcore
  | running run => exact .stopMark hlock hpc hcore

theorem stopWake_move {r : HookReason} {g : Gen} (hpc : (s.conns c).pc = .stopWait r g)
    (h : s.stopWake c g r = some s') : ConnMove env s c ans s' := by
  obtain ⟨hlock, h⟩ := lockSt_eq_some h
  injection h with h
  subst h
  cases hcore : s.core with
  | stopped => exact .stopSeen hlock hpc hcore
  | running run => exact .stopAgain hlock hpc hcore

theorem endedStep_move (hpc : (s.conns c).pc = .ended) : ConnMove env s c ans (s.endedStep c) := by
  unfold Sys.endedStep
  cases hk : (s.conns c).kicked with
  | false => exact .endedOwner hpc hk
  | true => exact .endedKicked hpc hk

theorem giveUpStep_move (hpc : (s.conns c).pc = .giveUp) (h : s.giveUpStep c = some s') :
    ConnMove env s c ans s' := by
  obtain ⟨hlock, h⟩ := lockSt_eq_some h
  injection h with h
  subst h
  split
  · next hid =>
    obtain ⟨o, howner, hid⟩ := Option.map_eq_some_iff.mp hid
    exact .giveUp hlock hpc howner hid
  · next hid =>
    refine .giveUpOther hlock hpc fun o ho he => hid ?_
    rw [ho, Option.map_some, he]

theorem connSweep_move {sw : Sweep} {hook : Option HookId} (hpc : (s.conns c).pc = .sweep sw hook)
    (h : s.connSweep env c sw hook ans = some s') : ConnMove env s c ans s' := by
  obtain ⟨⟨s₁, next⟩, hsw, rfl⟩ := Option.map_eq_some_iff.mp h
  cases next with
  | none => exact .swept hpc hsw
  | some sw' => exact .sweep hpc hsw

theorem joinStep_move {hook : Option HookId} (hpc : (s.conns c).pc = .join hook)
    (h : s.joinStep c hook = some s') : ConnMove env s c ans s' := by
  cases hook with
  | none => cases h; exact .join hpc (fun _ h => nomatch h)
  | some hk =>
    simp only [Sys.joinStep] at h
    split at h
    · next hdone =>
      cases h
      refine .join hpc fun k hk' => ?_
      injection hk' with hk'
      exact hk' ▸ hdone
    · cases h

/-- **`connStep` inverted.** -/
theorem connStep_move (h : s.connStep env c ans = some s') : ConnMove env s c ans s' := by
  unfold Sys.connStep at h
  split at h
  · next hpc => exact authStep_move hpc h
  · next hpc => exact readHelloStep_move hpc h
  · next hpc => cases h; exact .refused hpc
  · next hpc => exact leaseStep_move hpc h
  · next hpc =>
    unfold Sys.kickWriteStep at h
    split at h
    · cases h; exact .kickWrite hpc
    · cases h; exact .kickSkip hpc
    · cases h
  · next hpc =>
    unfold Sys.kickShutdownStep at h
    split at h
    · cases h; exact .kickShutdown hpc
    · cases h
  · next hpc =>
    obtain ⟨hlock, h⟩ := lockSt_eq_some h
    cases h
    exact .helloSnap hlock hpc
  · next hpc => cases h; exact .helloWrite hpc
  · next hpc => exact loopStep_move hpc h
  · next hpc => cases h; exact .reply hpc
  · next hpc => exact startLock_move hpc h
  · next hpc => cases h; exact .spawnMonitor hpc
  · next hpc =>
    unfold Sys.upHook at h
    split at h
    · cases h; exact .upHook hpc
    · cases h
  · next hpc =>
    obtain ⟨hlock, h⟩ := lockSt_eq_some h
    cases h
    exact .statusSnap hlock hpc
  · next hpc => exact stopLock_move hpc h
  · next hpc => exact stopWake_move hpc h
  · next hpc =>
    unfold Sys.stopHook at h
    split at h
    · cases h; exact .stopHook hpc
    · cases h
  · next hpc => cases h; exact endedStep_move hpc
  · next hpc => exact giveUpStep_move hpc h
  · next hpc => exact connSweep_move hpc h
  · next hpc => exact joinStep_move hpc h
  · next hpc => cases h; exact .exit hpc
  · cases h

end

/-- The moves of the monitor of generation `g`. -/
inductive MonMove (env : Env) (s : Sys) (g : Gen) : Answer → Sys → Prop
  | poll (hpc : (s.monitors g).pc = .tryWait) (hlife : (s.children g).life = .alive) :
      MonMove env s g .done (s.setMonPc g .check)
  | reap {info : ExitInfo} (hpc : (s.monitors g).pc = .tryWait)
      (hlife : (s.children g).life = .dead info) :
      MonMove env s g .done ((s.setLife g .reaped).setMonPc g (.exitLock info))
  | waitErr (hpc : (s.monitors g).pc = .tryWait) :
      MonMove env s g .failed (s.setMonPc g (.exitLock ⟨none, none⟩))
  | checkYes {ans : Answer} (hlock : s.locked = none) (hpc : (s.monitors g).pc = .check)
      (hreq : s.stopRequestedFor (s.monitors g).pid = true) :
      MonMove env s g ans (s.setMonPc g .escalate)
  | checkNo {ans : Answer} (hlock : s.locked = none) (hpc : (s.monitors g).pc = .check) :
      MonMove env s g ans (s.setMonPc g .sleep)
  | term {ans : Answer} (hpc : (s.monitors g).pc = .escalate)
      (hdl : (s.monitors g).termDeadline = none) :
      MonMove env s g ans ((s.sendSignal g .term).setMonPc g .arm)
  | decideKill {ans : Answer} {d : Nat} (hpc : (s.monitors g).pc = .escalate)
      (hdl : (s.monitors g).termDeadline = some d) (hsent : (s.monitors g).killSent = false)
      (hnow : d ≤ s.now) : MonMove env s g ans (s.setMonPc g .sendKill)
  | decideWait {ans : Answer} (hpc : (s.monitors g).pc = .escalate) :
      MonMove env s g ans (s.setMonPc g .sleep)
  | arm {ans : Answer} (hpc : (s.monitors g).pc = .arm) : MonMove env s g ans (s.monArm g)
  | kill {ans : Answer} (hpc : (s.monitors g).pc = .sendKill) :
      MonMove env s g ans (s.monSendKill g)
  | wake {ans : Answer} (hlock : s.locked = none) (hpc : (s.monitors g).pc = .sleep) :
      MonMove env s g ans (s.setMonPc g .tryWait)
  | exit {ans : Answer} {info : ExitInfo} {run : Running} (hlock : s.locked = none)
      (hpc : (s.monitors g).pc = .exitLock info) (hcore : s.core = .running run)
      (hpid : run.pid = (s.monitors g).pid) :
      MonMove env s g ans
        (s.setStopped.setMonPc g (if run.stopRequested then .done else .push info))
  | exitOther {ans : Answer} {info : ExitInfo} (hlock : s.locked = none)
      (hpc : (s.monitors g).pc = .exitLock info)
      (hother : ∀ run, s.core = .running run → run.pid ≠ (s.monitors g).pid) :
      MonMove env s g ans (s.setMonPc g .done)
  | pushNone {ans : Answer} {info : ExitInfo} (hlock : s.locked = none)
      (hpc : (s.monitors g).pc = .push info) (howner : s.owner = none) :
      MonMove env s g ans (s.setMonPc g .downHook)
  | push {ans : Answer} {info : ExitInfo} {o : OwnerSlot} (hlock : s.locked = none)
      (hpc : (s.monitors g).pc = .push info) (howner : s.owner = some o) :
      MonMove env s g ans (s.setMonPc g (.pushWrite info o.conn))
  | pushWrite {ans : Answer} {info : ExitInfo} {c : ConnId}
      (hpc : (s.monitors g).pc = .pushWrite info c) :
      MonMove env s g ans (s.monPushWrite g info c)
  | downHook {st : Stat} (hpc : (s.monitors g).pc = .downHook) :
      MonMove env s g (.stat st)
        ((s.runHook env ⟨.down, some .coreExited, some g⟩ none st).setMonPc g .sweepLock)
  | sweepLock {ans : Answer} (hlock : s.locked = none) (hpc : (s.monitors g).pc = .sweepLock)
      (hcore : s.core = .stopped) :
      MonMove env s g ans ((s.setLocked (some g)).setMonPc g (.sweep .ps))
  | sweepSkip {ans : Answer} {run : Running} (hlock : s.locked = none)
      (hpc : (s.monitors g).pc = .sweepLock) (hcore : s.core = .running run) :
      MonMove env s g ans (s.setMonPc g .done)
  | sweep {ans : Answer} {sw sw' : Sweep} {s₁ : Sys} (hpc : (s.monitors g).pc = .sweep sw)
      (hsw : sweepStep env s sw ans = some (s₁, some sw')) :
      MonMove env s g ans (s₁.setMonPc g (.sweep sw'))
  | swept {ans : Answer} {sw : Sweep} {s₁ : Sys} (hpc : (s.monitors g).pc = .sweep sw)
      (hsw : sweepStep env s sw ans = some (s₁, none)) :
      MonMove env s g ans ((s₁.setLocked none).setMonPc g .done)

section

variable {env : Env} {s s' : Sys} {g : Gen} {ans : Answer}

theorem monTryWait_move (hpc : (s.monitors g).pc = .tryWait) (h : s.monTryWait g ans = some s') :
    MonMove env s g ans s' := by
  unfold Sys.monTryWait at h
  split at h
  · split at h
    · next hlife => cases h; exact .poll hpc hlife
    · next hlife => cases h; exact .reap hpc hlife
    · cases h
  · cases h; exact .waitErr hpc
  · cases h

theorem monEscalate_move (hpc : (s.monitors g).pc = .escalate) :
    MonMove env s g ans (s.monEscalate g) := by
  unfold Sys.monEscalate
  split
  · next hdl => exact .term hpc hdl
  · next hdl =>
    split
    · next hk =>
      simp only [Bool.and_eq_true, Bool.not_eq_true', decide_eq_true_eq] at hk
      exact .decideKill hpc hdl hk.1 hk.2
    · exact .decideWait hpc

theorem handleCoreExit_move {info : ExitInfo} (hpc : (s.monitors g).pc = .exitLock info)
    (h : s.handleCoreExit g info = some s') : MonMove env s g ans s' := by
  obtain ⟨hlock, h⟩ := lockSt_eq_some h
  injection h with h
  subst h
  split
  · next run hcore =>
    split
    · next hpid => exact .exit hlock hpc hcore hpid
    · next hpid =>
      refine .exitOther hlock hpc fun run' hcore' he => hpid ?_
      rw [hcore] at hcore'
      injection hcore' with hrun
      exact hrun ▸ he
  · next hcore =>
    refine .exitOther hlock hpc fun run' hcore' => ?_
    rw [hcore] at hcore'
    cases hcore'

/-- **`monStep` inverted.** -/
theorem monStep_move (h : s.monStep env g ans = some s') : MonMove env s g ans s' := by
  unfold Sys.monStep at h
  split at h
  · cases h
  · cases h
  · next hpc => exact monTryWait_move hpc h
  · next hpc =>
    obtain ⟨hlock, h⟩ := lockSt_eq_some h
    injection h with h
    subst h
    split
    · next hreq => exact .checkYes hlock hpc hreq
    · exact .checkNo hlock hpc
  · next hpc => cases h; exact monEscalate_move hpc
  · next hpc => cases h; exact .arm hpc
  · next hpc => cases h; exact .kill hpc
  · next hpc =>
    obtain ⟨hlock, h⟩ := lockSt_eq_some h
    cases h
    exact .wake hlock hpc
  · next hpc => exact handleCoreExit_move hpc h
  · next hpc =>
    obtain ⟨hlock, h⟩ := lockSt_eq_some h
    injection h with h
    subst h
    split
    · next howner => exact .pushNone hlock hpc howner
    · next howner => exact .push hlock hpc howner
  · next hpc => cases h; exact .pushWrite hpc
  · next hpc =>
    unfold Sys.monDownHook at h
    split at h
    · cases h; exact .downHook hpc
    · cases h
  · next hpc =>
    obtain ⟨hlock, h⟩ := lockSt_eq_some h
    injection h with h
    subst h
    split
    · next hcore => exact .sweepLock hlock hpc hcore
    · next hcore => exact .sweepSkip hlock hpc hcore
  · next hpc =>
    obtain ⟨⟨s₁, next⟩, hsw, rfl⟩ := Option.map_eq_some_iff.mp h
    cases next with
    | none => exact .swept hpc hsw
    | some sw' => exact .sweep hpc hsw

end

/-- The moves of the main thread, the timer, the hook threads and the environment. -/
inductive OtherMove (env : Env) (s : Sys) : Action → Sys → Prop
  | main {ans : Answer} {sw sw' : Sweep} {s₁ : Sys} (hmain : s.main = .sweep sw)
      (hsw : sweepStep env s sw ans = some (s₁, some sw')) :
      OtherMove env s (.main ans) { s₁ with main := .sweep sw' }
  | serve {ans : Answer} {sw : Sweep} {s₁ : Sys} (hmain : s.main = .sweep sw)
      (hsw : sweepStep env s sw ans = some (s₁, none)) :
      OtherMove env s (.main ans)
        { s₁ with main := .serving, timer := .sleeping (s₁.now + NO_OWNER_TIMEOUT) }
  | timerOwner {due : Nat} {o : OwnerSlot} (hlock : s.locked = none)
      (htimer : s.timer = .sleeping due) (hdue : due ≤ s.now) (howner : s.owner = some o) :
      OtherMove env s .timer (s.setTimer .done)
  | timerNoOwner {due : Nat} (hlock : s.locked = none) (htimer : s.timer = .sleeping due)
      (hdue : due ≤ s.now) (howner : s.owner = none) :
      OtherMove env s .timer (s.setTimer .exiting)
  | timerExit (htimer : s.timer = .exiting) : OtherMove env s .timer (s.exit .timer)
  | hookLaunch {h : HookId} {ans : Answer} {pc : HookPc} (hpc : (s.hooks h).pc = .created) :
      OtherMove env s (.hook h ans) (s.setHook h pc)
  | hookEnd {h : HookId} {ans : Answer} {d : Nat} {how : HookEnd}
      (hpc : (s.hooks h).pc = .running d) :
      OtherMove env s (.hook h ans) (s.setHook h (.finished how))
  | accept {uid : Option UInt32} (hmain : s.main = .serving) :
      OtherMove env s (.accept uid) { s with
        conns := Function.update s.conns s.nConns { pc := .auth, uid := uid }
        nConns := s.nConns + 1 }
  | arrive {c : ConnId} {bytes : List UInt8} (hopen : (s.conns c).closed = false) :
      OtherMove env s (.arrive c bytes) (s.modConn c fun k => { k with sock := k.sock ++ bytes })
  | hangup {c : ConnId} :
      OtherMove env s (.hangup c) (s.modConn c fun k => { k with closed := true })
  | die {g : Gen} {info : ExitInfo} (hlife : (s.children g).life = .alive) :
      OtherMove env s (.die g info) (s.setLife g (.dead info))
  | tick {d : Nat} : OtherMove env s (.tick d) { s with now := s.now + d }
  | procs {a : Action} {ps : List Proc} (ha : (∃ p, a = .appear p) ∨ ∃ pid, a = .vanish pid) :
      OtherMove env s a { s with procs := ps }

/-- A step is a move of a connection, of a monitor, or one of the others. -/
inductive Move (env : Env) (s : Sys) : Action → Sys → Prop
  | conn {c : ConnId} {ans : Answer} {s' : Sys} (h : ConnMove env s c ans s') :
      Move env s (.conn c ans) s'
  | monitor {g : Gen} {ans : Answer} {s' : Sys} (h : MonMove env s g ans s') :
      Move env s (.monitor g ans) s'
  | other {a : Action} {s' : Sys} (h : OtherMove env s a s') : Move env s a s'

section

variable {env : Env} {s s' : Sys}

theorem mainStep_move {ans : Answer} (h : s.mainStep env ans = some s') :
    OtherMove env s (.main ans) s' := by
  unfold Sys.mainStep at h
  split at h
  · next hmain =>
    obtain ⟨⟨s₁, next⟩, hsw, rfl⟩ := Option.map_eq_some_iff.mp h
    cases next with
    | none => exact .serve hmain hsw
    | some sw' => exact .main hmain hsw
  · cases h

theorem timerStep_move (h : s.timerStep = some s') : OtherMove env s .timer s' := by
  unfold Sys.timerStep at h
  split at h
  · next htimer =>
    split at h
    · next hdue =>
      obtain ⟨hlock, h⟩ := lockSt_eq_some h
      injection h with h
      subst h
      cases howner : s.owner with
      | none =>
        rw [show s.hasOwner = false by rw [Sys.hasOwner, howner]; rfl]
        exact .timerNoOwner hlock htimer hdue howner
      | some o =>
        rw [show s.hasOwner = true by rw [Sys.hasOwner, howner]; rfl]
        exact .timerOwner hlock htimer hdue howner
    · cases h
  · next htimer => cases h; exact .timerExit htimer
  · cases h
  · cases h

theorem hookStep_move {k : HookId} {ans : Answer} (h : s.hookStep env k ans = some s') :
    OtherMove env s (.hook k ans) s' := by
  unfold Sys.hookStep at h
  split at h
  · next hpc => cases h; exact .hookLaunch hpc
  · next hpc => cases h; exact .hookLaunch hpc
  · next hpc => cases h; exact .hookEnd hpc
  · next hpc => cases h; exact .hookEnd hpc
  · next hpc =>
    split at h
    · cases h; exact .hookEnd hpc
    · cases h
  · cases h

/-- **`step` inverted**: the process has not exited, and the step is a move. -/
theorem step_move {a : Action} (h : step env s a = some s') :
    s.exited = none ∧ Move env s a s' := by
  unfold step at h
  split at h
  · cases h
  · next hex =>
    refine ⟨by simpa using hex, ?_⟩
    cases a with
    | main ans => exact .other (mainStep_move h)
    | timer => exact .other (timerStep_move h)
    | conn c ans => exact .conn (connStep_move h)
    | monitor g ans => exact .monitor (monStep_move h)
    | hook k ans => exact .other (hookStep_move h)
    | accept uid =>
      dsimp only [Sys.acceptStep] at h
      split at h
      · next hmain => cases h; exact .other (.accept hmain)
      · cases h
    | arrive c bytes =>
      dsimp only [Sys.arriveStep] at h
      split at h
      · cases h
      · next hopen => cases h; exact .other (.arrive (by simpa using hopen))
    | hangup c => cases h; exact .other .hangup
    | die g info =>
      dsimp only [Sys.dieStep] at h
      split at h
      · next hlife => cases h; exact .other (.die hlife)
      · cases h
    | tick d => cases h; exact .other .tick
    | appear p => cases h; exact .other (.procs (.inl ⟨p, rfl⟩))
    | vanish pid => cases h; exact .other (.procs (.inr ⟨pid, rfl⟩))

end

end EasyTierMac.Supervisor
