import EasyTierMac.Supervisor.Progress
import EasyTierMac.Properties.Orphans

/-!
# The sweeps of a run

`sweep_orphans` runs in three places: on the main thread before the supervisor serves, in the
teardown of a connection, and in the monitor of a core that has died unexpectedly, there with
the state mutex held. `Sweeper` names the threads that can be in one, and `Move.sweeps` says
what a step does to the sweeps: it is a call of one of them, or begins one, or touches none.

The sweep on the main thread and those of the monitors are guarded (`Guarded`): as long as one
is under way there is no core, and `start` cannot make one.
-/

namespace EasyTierMac.Supervisor

open Function (update update_apply)
open Rust (Text)

variable {env : Env} {s s' : Sys}

/-- A thread that can be in `sweep_orphans`. -/
inductive Sweeper
  /-- The main thread, at activation. -/
  | main
  /-- The teardown of a connection. -/
  | conn (c : ConnId)
  /-- The monitor of a generation, after an unexpected exit. -/
  | monitor (g : Gen)
  deriving DecidableEq, Repr

def MainPc.sweep? : MainPc → Option Sweep
  | .sweep sw => some sw
  | .serving => none

def ConnPc.sweep? : ConnPc → Option Sweep
  | .sweep sw _ => some sw
  | _ => none

def MonPc.sweep? : MonPc → Option Sweep
  | .sweep sw => some sw
  | _ => none

/-- The sweep that a thread is in. -/
def Sys.sweepOf (s : Sys) : Sweeper → Option Sweep
  | .main => s.main.sweep?
  | .conn c => (s.conns c).pc.sweep?
  | .monitor g => (s.monitors g).pc.sweep?

/-- The thread that takes the step, if it can be in a sweep, and the answer to its call. -/
def Action.sweeper : Action → Option (Sweeper × Answer)
  | .main ans => some (.main, ans)
  | .conn c ans => some (.conn c, ans)
  | .monitor g ans => some (.monitor g, ans)
  | _ => none

/-- The hook that a sweep fires when it has killed something. -/
def janitorCall : HookCall := ⟨.down, some .janitor, none⟩

/-- The calls of a sweep. -/
inductive SweepCall (env : Env) (s : Sys) : Sweep → Answer → Sys → Option Sweep → Prop
  | noPs : SweepCall env s .ps .failed s none
  | ps : SweepCall env s .ps .done s (some (.kill
      (orphanPids env.config.corePath env.selfPid none (psOutput (s.procTable env))) 0))
  | kill {pid : Int32} {todo : List Int32} {killed : Nat} {ok : Bool} :
      SweepCall env s (.kill (pid :: todo) killed) (.killed ok) s
        (some (.kill todo (if ok then killed + 1 else killed)))
  | quiet : SweepCall env s (.kill [] 0) .done s none
  | hook {killed : Nat} {st : Stat} : SweepCall env s (.kill [] (killed + 1)) (.stat st)
      (s.runHook env janitorCall none st) none

theorem sweepStep_call {sw : Sweep} {ans : Answer} {next : Option Sweep}
    (h : sweepStep env s sw ans = some (s', next)) : SweepCall env s sw ans s' next := by
  unfold sweepStep at h
  split at h
  · cases h
    exact .noPs
  · cases h
    exact .ps
  · split at h
    · cases h
    · cases h
      exact .kill
  · cases h
    exact .quiet
  · cases h
    exact .hook
  · cases h

/-! ## What a step does to the sweeps -/

/-- A step is the next call of one sweep, or it touches the sweeps only by beginning one. -/
inductive Sweeps (env : Env) (s : Sys) (a : Action) (s' : Sys) : Prop
  | call {w : Sweeper} {ans : Answer} {sw : Sweep} {s₁ : Sys} {next : Option Sweep}
      (ha : a.sweeper = some (w, ans)) (hw : s.sweepOf w = some sw)
      (hsw : sweepStep env s sw ans = some (s₁, next)) (hw' : s'.sweepOf w = next)
      (hcalls : s'.hookCalls = s₁.hookCalls) (hne : ∀ v, v ≠ w → s'.sweepOf v = s.sweepOf v)
  | other (ha : ∀ w ans, a.sweeper = some (w, ans) → s.sweepOf w = none)
      (hcalls : s'.hookCalls.count janitorCall = s.hookCalls.count janitorCall)
      (hsw : ∀ w, s'.sweepOf w = s.sweepOf w ∨ s.sweepOf w = none ∧ s'.sweepOf w = some .ps)

theorem Sys.runHook_count (s : Sys) (env : Env) {call : HookCall} (joiner : Option ConnId) (st : Stat)
    (hcall : call ≠ janitorCall) :
    (s.runHook env call joiner st).hookCalls.count janitorCall = s.hookCalls.count janitorCall := by
  rw [hookCalls_runHook, List.count_append, List.count_singleton, if_neg (by simpa using hcall)]
  rfl

/-- The other threads sweep on when a connection moves. -/
theorem ConnMove.sweepOf_of_ne {c : ConnId} {ans : Answer} (hr : (supervisor env).Reachable s)
    (h : ConnMove env s c ans s') {w : Sweeper} (hw : w ≠ .conn c) : s'.sweepOf w = s.sweepOf w := by
  cases w with
  | main =>
    show s'.main.sweep? = _
    rw [h.main_eq]
    rfl
  | conn d =>
    have hd : d ≠ c := fun he => hw (he ▸ rfl)
    show (s'.conns d).pc.sweep? = _
    rw [(h.of_ne hd).1]
    rfl
  | monitor g =>
    show (s'.monitors g).pc.sweep? = (s.monitors g).pc.sweep?
    by_cases hpc : (s.monitors g).pc = .absent
    · rcases h.monitors_cases g with he | ⟨-, he⟩
      · rw [he]
      · rw [he, hpc]
        rfl
    · rw [monitor_keep hr h hpc]

theorem ConnMove.sweeps {c : ConnId} {ans : Answer} (hr : (supervisor env).Reachable s)
    (h : ConnMove env s c ans s') : Sweeps env s (.conn c ans) s' := by
  have hne : ∀ v, v ≠ .conn c → s'.sweepOf v = s.sweepOf v := fun v hv => h.sweepOf_of_ne hr hv
  have hkeep : ∀ {pc : ConnPc}, (s.conns c).pc = pc → pc.sweep? = none →
      s'.hookCalls.count janitorCall = s.hookCalls.count janitorCall →
      ((s'.conns c).pc.sweep? = none ∨ (s'.conns c).pc.sweep? = some .ps) →
      Sweeps env s (.conn c ans) s' := by
    intro pc hpc hsw hcalls hpc'
    have hnone : s.sweepOf (.conn c) = none := by
      show (s.conns c).pc.sweep? = none
      rw [hpc, hsw]
    refine .other (fun w ans' ha => ?_) hcalls fun w => ?_
    · cases ha
      exact hnone
    · by_cases hw : w = .conn c
      · subst hw
        rw [hnone]
        rcases hpc' with hpc' | hpc'
        · exact .inl hpc'
        · exact .inr ⟨rfl, hpc'⟩
      · exact .inl (hne w hw)
  cases h with
  | @sweep _ sw sw' hook s₁ hpc hsw =>
    have hw : s.sweepOf (.conn c) = some sw := by
      show (s.conns c).pc.sweep? = some sw
      rw [hpc]
      rfl
    refine .call rfl hw hsw ?_ rfl hne
    show ((s₁.setPc c (.sweep sw' hook)).conns c).pc.sweep? = some sw'
    simp [ConnPc.sweep?]
  | @swept _ sw hook s₁ hpc hsw =>
    have hw : s.sweepOf (.conn c) = some sw := by
      show (s.conns c).pc.sweep? = some sw
      rw [hpc]
      rfl
    refine .call rfl hw hsw ?_ rfl hne
    show ((s₁.setPc c (.join hook)).conns c).pc.sweep? = none
    simp [ConnPc.sweep?]
  | refill hpc =>
    rcases hpc with hpc | hpc
    · exact hkeep hpc rfl rfl (.inl (by simp [hpc, ConnPc.sweep?]))
    · exact hkeep hpc rfl rfl (.inl (by simp [hpc, ConnPc.sweep?]))
  | upHook hpc =>
    refine hkeep hpc rfl ?_ (.inl (by simp [ConnPc.sweep?]))
    exact s.runHook_count env none _ (by simp [janitorCall])
  | @stopHook st r g hpc =>
    refine hkeep hpc rfl ?_ ?_
    · exact s.runHook_count env _ _ (by simp [janitorCall])
    · cases r <;> simp [Sys.afterStop, Sys.afterStopPc, ConnPc.sweep?]
  | @stopIdle _ r hlock hpc =>
    refine hkeep hpc rfl rfl ?_
    cases r <;> simp [Sys.afterStop, Sys.afterStopPc, ConnPc.sweep?]
  | exit hpc => exact hkeep hpc rfl rfl (.inl (by simp [hpc, Sys.exit, ConnPc.sweep?]))
  | loopBlank hpc => exact hkeep hpc rfl rfl (.inl (by simp [hpc, ConnPc.sweep?]))
  | stopAgain hlock hpc => exact hkeep hpc rfl rfl (.inl (by simp [hpc, ConnPc.sweep?]))
  | gate hpc | reject hpc | helloFail hpc | helloDrop hpc | helloRefuse hpc | helloAccept hpc
  | refused hpc | busy _ hpc | accept _ hpc | takeover _ hpc | kickWrite hpc | kickSkip hpc
  | kickShutdown hpc | helloSnap _ hpc | helloWrite hpc | loopFail hpc | loopEnd hpc
  | loopError hpc | loopStart hpc | loopStatus hpc | loopStop hpc | startRunning _ hpc
  | startFailed _ hpc | spawn _ hpc | spawnMonitor hpc | statusSnap _ hpc | reply hpc
  | stopMark _ hpc | stopSeen _ hpc | endedKicked hpc | endedOwner hpc | giveUp _ hpc
  | giveUpOther _ hpc | join hpc =>
    exact hkeep hpc rfl rfl (.inl (by simp [Sys.takeId, Sys.spawnMonitor, ConnPc.sweep?]))

/-- The other threads sweep on when a monitor moves. -/
theorem MonMove.sweepOf_of_ne {g : Gen} {ans : Answer} (h : MonMove env s g ans s') {w : Sweeper}
    (hw : w ≠ .monitor g) : s'.sweepOf w = s.sweepOf w := by
  cases w with
  | main =>
    show s'.main.sweep? = _
    rw [h.main_eq]
    rfl
  | conn d =>
    obtain ⟨out, he⟩ := h.conns_eq d
    show (s'.conns d).pc.sweep? = _
    rw [he]
    rfl
  | monitor k =>
    have hk : k ≠ g := fun he => hw (he ▸ rfl)
    show (s'.monitors k).pc.sweep? = _
    rw [h.of_ne hk]
    rfl

theorem MonMove.sweeps {g : Gen} {ans : Answer} (h : MonMove env s g ans s') :
    Sweeps env s (.monitor g ans) s' := by
  have hne : ∀ v, v ≠ .monitor g → s'.sweepOf v = s.sweepOf v := fun v hv => h.sweepOf_of_ne hv
  have hkeep : ∀ {pc : MonPc}, (s.monitors g).pc = pc → pc.sweep? = none →
      s'.hookCalls.count janitorCall = s.hookCalls.count janitorCall →
      ((s'.monitors g).pc.sweep? = none ∨ (s'.monitors g).pc.sweep? = some .ps) →
      Sweeps env s (.monitor g ans) s' := by
    intro pc hpc hsw hcalls hpc'
    have hnone : s.sweepOf (.monitor g) = none := by
      show (s.monitors g).pc.sweep? = none
      rw [hpc, hsw]
    refine .other (fun w ans' ha => ?_) hcalls fun w => ?_
    · cases ha
      exact hnone
    · by_cases hw : w = .monitor g
      · subst hw
        rw [hnone]
        rcases hpc' with hpc' | hpc'
        · exact .inl hpc'
        · exact .inr ⟨rfl, hpc'⟩
      · exact .inl (hne w hw)
  cases h with
  | @sweep _ sw sw' s₁ hpc hsw =>
    have hw : s.sweepOf (.monitor g) = some sw := by
      show (s.monitors g).pc.sweep? = some sw
      rw [hpc]
      rfl
    refine .call rfl hw hsw ?_ rfl hne
    show ((s₁.setMonPc g (.sweep sw')).monitors g).pc.sweep? = some sw'
    simp [MonPc.sweep?]
  | @swept _ sw s₁ hpc hsw =>
    have hw : s.sweepOf (.monitor g) = some sw := by
      show (s.monitors g).pc.sweep? = some sw
      rw [hpc]
      rfl
    refine .call rfl hw hsw ?_ rfl hne
    show (((s₁.setLocked none).setMonPc g .done).monitors g).pc.sweep? = none
    simp [MonPc.sweep?]
  | sweepLock hlock hpc => exact hkeep hpc rfl rfl (.inr (by simp [MonPc.sweep?]))
  | downHook hpc =>
    refine hkeep hpc rfl ?_ (.inl (by simp [MonPc.sweep?]))
    exact s.runHook_count env none _ (by simp [janitorCall])
  | @exit _ info run hlock hpc =>
    refine hkeep hpc rfl rfl (.inl ?_)
    cases hreq : run.stopRequested <;> simp [MonPc.sweep?]
  | arm hpc | kill hpc =>
    exact hkeep hpc rfl rfl (.inl (by simp [Sys.monArm, Sys.monSendKill, MonPc.sweep?]))
  | poll hpc | reap hpc | waitErr hpc | checkYes _ hpc | checkNo _ hpc | term hpc | decideKill hpc
  | decideWait hpc | wake _ hpc | exitOther _ hpc | pushNone _ hpc | push _ hpc | pushWrite hpc
  | sweepSkip _ hpc =>
    exact hkeep hpc rfl rfl (.inl (by simp [Sys.monPushWrite, MonPc.sweep?]))

theorem OtherMove.sweeps {a : Action} (hr : (supervisor env).Reachable s)
    (h : OtherMove env s a s') : Sweeps env s a s' := by
  have hconn : ∀ d, (s'.conns d).pc.sweep? = (s.conns d).pc.sweep? := by
    intro d
    rcases h.conns_eq with ⟨uid, hc, -⟩ | ⟨-, hc⟩
    · rw [hc]
      by_cases hd : d = s.nConns
      · -- a connection that was just accepted
        rw [hd, Function.update_self, (Accepted.of_reachable hr).closed s.nConns (Nat.le_refl _)]
        rfl
      · rw [Function.update_of_ne hd]
    · obtain ⟨sock, closed, he⟩ := hc d
      rw [he]
  have hmon : ∀ k, (s'.monitors k).pc.sweep? = (s.monitors k).pc.sweep? := by
    intro k
    rw [h.monitors_eq]
  have hkeep : (∀ w ans, a.sweeper ≠ some (w, ans)) → s'.hookCalls = s.hookCalls →
      s'.main = s.main → Sweeps env s a s' := by
    intro ha hcalls hmain
    refine .other (fun w ans he => absurd he (ha w ans)) (by rw [hcalls]) fun w => .inl ?_
    cases w with
    | main =>
      show s'.main.sweep? = _
      rw [hmain]
      rfl
    | conn d => exact hconn d
    | monitor k => exact hmon k
  have hne : ∀ v, v ≠ .main → s'.sweepOf v = s.sweepOf v := by
    intro v hv
    cases v with
    | main => exact absurd rfl hv
    | conn d => exact hconn d
    | monitor k => exact hmon k
  cases h with
  | @main ans sw sw' s₁ hmain hsw =>
    refine .call rfl ?_ hsw rfl rfl hne
    show s.main.sweep? = some sw
    rw [hmain]
    rfl
  | @serve ans sw s₁ hmain hsw =>
    refine .call rfl ?_ hsw rfl rfl hne
    show s.main.sweep? = some sw
    rw [hmain]
    rfl
  | procs ha =>
    rcases ha with ⟨p, rfl⟩ | ⟨pid, rfl⟩
    · exact hkeep (fun w ans he => by cases he) rfl rfl
    · exact hkeep (fun w ans he => by cases he) rfl rfl
  | _ => exact hkeep (fun w ans he => by cases he) rfl rfl

/-- **What a step does to the sweeps.** -/
theorem Move.sweeps {a : Action} (hr : (supervisor env).Reachable s) (h : Move env s a s') :
    Sweeps env s a s' := by
  cases h with
  | conn h => exact h.sweeps hr
  | monitor h => exact h.sweeps
  | other h => exact h.sweeps hr

/-! ## Guarded sweeps -/

/-- The thread sweeps where no core can be started. -/
def Sweeper.guarded : Sweeper → Bool
  | .main | .monitor _ => true
  | .conn _ => false

/-- While the main thread sweeps there is no connection and no core; and a monitor that sweeps has
the state mutex, with no core running. -/
structure Guarded (s : Sys) : Prop where
  main : s.main ≠ .serving → s.nConns = 0 ∧ s.nGen = 0 ∧ s.core = .stopped
  monitor : ∀ g, (s.monitors g).pc.sweeping = true → s.locked = some g
  locked : s.locked ≠ none → s.core = .stopped

theorem MonPc.sweeping_eq (pc : MonPc) : pc.sweeping = pc.sweep?.isSome := by
  cases pc <;> rfl

theorem Guarded.core {w : Sweeper} (h : Guarded s) (hw : w.guarded = true)
    (hsw : (s.sweepOf w).isSome = true) : s.core = .stopped := by
  cases w with
  | main =>
    refine (h.main fun hmain => ?_).2.2
    rw [Sys.sweepOf, hmain] at hsw
    cases hsw
  | conn c => cases hw
  | monitor g =>
    refine h.locked ?_
    rw [h.monitor g ((MonPc.sweeping_eq _).trans hsw)]
    exact Option.some_ne_none g

/-- Only a sweep on the main thread or a monitor's is guarded, and there is one at a time. -/
theorem Guarded.unique {v w : Sweeper} (hr : (supervisor env).Reachable s) (h : Guarded s)
    (hv : v.guarded = true) (hw : w.guarded = true) (hsv : (s.sweepOf v).isSome = true)
    (hsw : (s.sweepOf w).isSome = true) : v = w := by
  have hno (g : Gen) (hm : (s.sweepOf .main).isSome = true) :
      ¬ (s.sweepOf (.monitor g)).isSome = true := by
    intro hg
    have hserving : s.main ≠ .serving := by
      intro he
      rw [Sys.sweepOf, he] at hm
      cases hm
    have hne : (s.monitors g).pc ≠ .absent := by
      intro he
      rw [Sys.sweepOf, he] at hg
      cases hg
    have hlt := lt_nGen_of_monitor hr hne
    rw [(h.main hserving).2.1] at hlt
    exact Nat.not_lt_zero g hlt
  cases v with
  | conn c => cases hv
  | main =>
    cases w with
    | main => rfl
    | conn c => cases hw
    | monitor g => exact absurd hsw (hno g hsv)
  | monitor g =>
    cases w with
    | main => exact absurd hsv (hno g hsw)
    | conn c => cases hw
    | monitor k =>
      have hg := h.monitor g ((MonPc.sweeping_eq _).trans hsv)
      have hk := h.monitor k ((MonPc.sweeping_eq _).trans hsw)
      rw [Option.some.inj (hg.symm.trans hk)]

/-- A connection does not touch the core while a monitor sweeps. -/
theorem ConnMove.core_eq_of_locked {c : ConnId} {ans : Answer} (h : ConnMove env s c ans s')
    (hl : s.locked ≠ none) : s'.core = s.core ∧ s'.nGen = s.nGen := by
  cases h with
  | spawn hlock | stopMark hlock => exact absurd hlock hl
  | sweep hpc hsw | swept hpc hsw =>
    obtain ⟨hooks, n, calls, rfl⟩ := sweepStep_eq hsw
    exact ⟨rfl, rfl⟩
  | upHook | stopHook => simp
  | _ => exact ⟨rfl, rfl⟩

/-- How a monitor takes the mutex for its sweep, and gives it back. -/
theorem MonMove.locks {g : Gen} {ans : Answer} (h : MonMove env s g ans s') :
    (s'.locked = s.locked ∧
      ((s'.monitors g).pc.sweeping = true → (s.monitors g).pc.sweeping = true)) ∨
    (s.locked = none ∧ s'.locked = some g ∧ s'.core = .stopped) ∨
    ((s.monitors g).pc.sweeping = true ∧ s'.locked = none ∧
      (s'.monitors g).pc.sweeping = false) := by
  cases h with
  | sweep hpc hsw =>
    obtain ⟨hooks, n, calls, rfl⟩ := sweepStep_eq hsw
    exact .inl ⟨rfl, fun _ => by rw [hpc]; rfl⟩
  | swept hpc hsw => exact .inr (.inr ⟨by rw [hpc]; rfl, rfl, by simp [MonPc.sweeping]⟩)
  | sweepLock hlock hpc hcore => exact .inr (.inl ⟨hlock, rfl, hcore⟩)
  | downHook hpc => exact .inl ⟨by simp, fun hs => by simp [MonPc.sweeping] at hs⟩
  | @exit _ info run =>
    refine .inl ⟨rfl, fun hs => ?_⟩
    cases hreq : run.stopRequested <;> simp [hreq, MonPc.sweeping] at hs
  | arm | kill =>
    exact .inl ⟨rfl, fun hs => by simp [Sys.monArm, Sys.monSendKill, MonPc.sweeping] at hs⟩
  | poll | reap | waitErr | checkYes | checkNo | term | decideKill | decideWait | wake | exitOther
  | pushNone | push | pushWrite | sweepSkip =>
    exact .inl ⟨rfl, fun hs => by simp [Sys.monPushWrite, MonPc.sweeping] at hs⟩

theorem Guarded.conn {c : ConnId} {ans : Answer} (hr : (supervisor env).Reachable s) (hI : Guarded s)
    (h : ConnMove env s c ans s') : Guarded s' := by
  constructor
  · intro hmain
    rw [h.main_eq] at hmain
    -- no connection has been accepted
    have hc : s.nConns ≤ c := by
      rw [(hI.main hmain).1]
      exact Nat.zero_le c
    exact absurd ((Accepted.of_reachable hr).closed c hc) h.pc_ne_closed
  · intro g hg
    rw [h.locked_eq]
    refine hI.monitor g ?_
    rcases h.monitors_cases g with he | ⟨-, he⟩
    · rw [← he]
      exact hg
    · rw [he] at hg
      cases hg
  · intro hl
    rw [h.locked_eq] at hl
    rw [(h.core_eq_of_locked hl).1]
    exact hI.locked hl

theorem Guarded.mon {g : Gen} {ans : Answer} (hI : Guarded s) (h : MonMove env s g ans s') :
    Guarded s' := by
  have hstop : s.core = .stopped → s'.core = .stopped := by
    intro hcore
    cases hcore' : s'.core with
    | stopped => rfl
    | running run =>
      rw [h.core_running hcore'] at hcore
      cases hcore
  constructor
  · intro hmain
    rw [h.main_eq] at hmain
    obtain ⟨hn, hgen, hcore⟩ := hI.main hmain
    exact ⟨h.nConns_eq.trans hn, h.nGen_eq.trans hgen, hstop hcore⟩
  · intro k hk
    by_cases hkg : k = g
    · subst hkg
      rcases h.locks with ⟨hl, hsame⟩ | ⟨-, hl, -⟩ | ⟨-, -, hno⟩
      · rw [hl]
        exact hI.monitor k (hsame hk)
      · exact hl
      · rw [hno] at hk
        cases hk
    · rw [h.of_ne hkg] at hk
      have hl := hI.monitor k hk
      rcases h.locks with ⟨hl', -⟩ | ⟨hnone, -, -⟩ | ⟨hg, -, -⟩
      · exact hl'.trans hl
      · rw [hnone] at hl
        cases hl
      · -- the monitor that gives the mutex back is the one that has it
        rw [hI.monitor g hg] at hl
        exact absurd (Option.some.inj hl).symm hkg
  · intro hl
    rcases h.locks with ⟨he, -⟩ | ⟨-, -, hcore⟩ | ⟨-, hnone, -⟩
    · rw [he] at hl
      exact hstop (hI.locked hl)
    · exact hcore
    · exact absurd hnone hl

theorem Guarded.other {a : Action} (hI : Guarded s) (h : OtherMove env s a s') : Guarded s' := by
  constructor
  · intro hmain
    cases h with
    | main hm hsw =>
      obtain ⟨hooks, n, calls, rfl⟩ := sweepStep_eq hsw
      refine hI.main fun he => ?_
      rw [hm] at he
      cases he
    | serve => exact absurd rfl hmain
    | accept hm => exact absurd hm hmain
    | _ => exact hI.main hmain
  · intro g hg
    rw [h.monitors_eq] at hg
    rw [h.locked_eq]
    exact hI.monitor g hg
  · intro hl
    rw [h.locked_eq] at hl
    rw [h.core_eq]
    exact hI.locked hl

theorem guarded_of_reachable (h : (supervisor env).Reachable s) : Guarded s := by
  have hinit : Guarded {} := by
    constructor
    · intro _
      exact ⟨rfl, rfl, rfl⟩
    · intro g hg
      cases hg
    · intro hl
      exact absurd rfl hl
  refine h.invariant hinit ?_
  intro s a s' hr hI _ hs
  cases (step_move hs).2 with
  | conn h => exact hI.conn hr h
  | monitor h => exact hI.mon h
  | other h => exact hI.other h

end EasyTierMac.Supervisor
