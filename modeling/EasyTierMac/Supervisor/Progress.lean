import EasyTierMac.Leading
import EasyTierMac.Supervisor.Received
import EasyTierMac.Properties.OneCore

/-!
# How each thread gets on

A thread of the supervisor can wait for another one in five places: for the state mutex, which
a monitor holds over a whole sweep; for a line of its peer; in `stop`, for the monitor of the
core; in the teardown, for a hook; and the timer for its time. Here each of these waits is
followed to its end, under steps that bring nothing new (`Winding`): no peer connects or sends,
no lease is granted, no core is spawned, and no call fails.

`unlock` gives the mutex back, `core_stops` brings the core down whatever its monitor is doing,
and `loop_ends` makes the command loop of a connection whose peer has hung up read what is left
and return.
-/

namespace EasyTierMac.Supervisor

open Function (update update_apply)
open Transition.System (Leads Stable)

/-! ## Steps that bring nothing new -/

/-- The call does not fail, and no core is spawned. -/
def Answer.calm : Answer → Bool
  | .failed | .spawn (.child _ _) => false
  | _ => true

/-- Nobody comes, nobody sends, no lease is granted, no core is spawned, and no read, write, wait
or launch fails. -/
def Winding (s : Sys) : Action → Prop
  | .accept _ | .arrive _ _ | .appear _ => False
  | .conn c ans => ans.calm = true ∧ (s.conns c).pc.isLease = false
  | .main ans | .monitor _ ans | .hook _ ans => ans.calm = true
  | .timer | .hangup _ | .die _ _ | .tick _ | .vanish _ => True

variable {env : Env} {s s' : Sys} {c : ConnId} {g : Gen}

/-! ## The state mutex -/

def MonPc.sweeping : MonPc → Bool
  | .sweep _ => true
  | _ => false

section

variable (s : Sys) (env : Env) (call : HookCall) (joiner : Option ConnId) (st : Stat)

@[simp] theorem Sys.runHook_locked : (s.runHook env call joiner st).locked = s.locked := by
  obtain ⟨hooks, n, he⟩ := s.runHook_eq env call joiner st
  rw [he]

@[simp] theorem Sys.runHook_main : (s.runHook env call joiner st).main = s.main := by
  obtain ⟨hooks, n, he⟩ := s.runHook_eq env call joiner st
  rw [he]

end

/-- Whoever holds the mutex across calls is sweeping. -/
def Locked (s : Sys) : Prop := ∀ g, s.locked = some g → (s.monitors g).pc.sweeping = true

theorem ConnMove.locked_eq {ans : Answer} (h : ConnMove env s c ans s') : s'.locked = s.locked := by
  cases h with
  | sweep hpc hsw | swept hpc hsw =>
    obtain ⟨hooks, n, calls, rfl⟩ := sweepStep_eq hsw
    rfl
  | upHook | stopHook => simp
  | _ => rfl

theorem OtherMove.locked_eq {a : Action} (h : OtherMove env s a s') : s'.locked = s.locked := by
  cases h with
  | main _ hsw | serve _ hsw =>
    obtain ⟨hooks, n, calls, rfl⟩ := sweepStep_eq hsw
    rfl
  | _ => rfl

theorem ConnMove.main_eq {c : ConnId} {ans : Answer} (h : ConnMove env s c ans s') :
    s'.main = s.main := by
  cases h with
  | sweep hpc hsw | swept hpc hsw =>
    obtain ⟨hooks, n, calls, rfl⟩ := sweepStep_eq hsw
    rfl
  | upHook | stopHook => simp
  | _ => rfl

theorem MonMove.main_eq {g : Gen} {ans : Answer} (h : MonMove env s g ans s') :
    s'.main = s.main := by
  cases h with
  | sweep hpc hsw | swept hpc hsw =>
    obtain ⟨hooks, n, calls, rfl⟩ := sweepStep_eq hsw
    rfl
  | downHook => simp
  | _ => rfl

theorem MonMove.locked_cases {ans : Answer} (h : MonMove env s g ans s') :
    (s'.locked = s.locked ∧ ((s.monitors g).pc.sweeping = true →
      (s'.monitors g).pc.sweeping = true)) ∨ s'.locked = none ∨
      s'.locked = some g ∧ (s'.monitors g).pc.sweeping = true := by
  cases h with
  | sweep hpc hsw =>
    obtain ⟨hooks, n, calls, rfl⟩ := sweepStep_eq hsw
    exact .inl ⟨rfl, fun _ => by simp [MonPc.sweeping]⟩
  | swept hpc hsw => exact .inr (.inl rfl)
  | sweepLock => exact .inr (.inr ⟨rfl, by simp [MonPc.sweeping]⟩)
  | downHook hpc => exact .inl ⟨by simp, fun hs => by simp [hpc, MonPc.sweeping] at hs⟩
  | poll hpc | reap hpc | waitErr hpc | checkYes _ hpc | checkNo _ hpc | term hpc | decideKill hpc
  | decideWait hpc | arm hpc | kill hpc | wake _ hpc | exit _ hpc | exitOther _ hpc
  | pushNone _ hpc | push _ hpc | pushWrite hpc | sweepSkip _ hpc =>
    exact .inl ⟨rfl, fun hs => by simp [hpc, MonPc.sweeping] at hs⟩

theorem locked_of_reachable (h : (supervisor env).Reachable s) : Locked s := by
  refine h.invariant (I := Locked) (fun g hg => by cases hg) ?_
  intro s a s' hr hI _ hs k hk
  cases (step_move hs).2 with
  | conn h =>
    rw [h.locked_eq] at hk
    have hne : (s.monitors k).pc ≠ .absent := by
      intro he
      have hsw := hI k hk
      rw [he] at hsw
      cases hsw
    rw [monitor_keep hr h hne]
    exact hI k hk
  | @monitor g ans _ h =>
    rcases h.locked_cases with ⟨he, hkeep⟩ | he | ⟨he, hsw⟩
    · rw [he] at hk
      by_cases hkg : k = g
      · subst hkg
        exact hkeep (hI k hk)
      · rw [h.of_ne hkg]
        exact hI k hk
    · rw [he] at hk
      cases hk
    · rw [he] at hk
      cases hk
      exact hsw
  | other h =>
    rw [h.locked_eq] at hk
    rw [h.monitors_eq]
    exact hI k hk

/-! ## Sweeps -/

/-- How many calls of a sweep are left, and more. -/
def Sys.left (env : Env) (s : Sys) : Sweep → Nat
  | .ps =>
    (orphanPids env.config.corePath env.selfPid none (psOutput (s.procTable env))).length + 2
  | .kill todo _ => todo.length + 1

def Sys.monLeft (env : Env) (s : Sys) : MonPc → Nat
  | .sweep sw => s.left env sw
  | _ => 0

def Sys.connLeft (env : Env) (s : Sys) : ConnPc → Nat
  | .sweep sw _ => s.left env sw
  | _ => 0

/-- A sweep goes on, and is shorter then, or has returned. -/
theorem sweep_gets_on (env : Env) (s : Sys) (sw : Sweep) : ∃ ans s' next,
    sweepStep env s sw ans = some (s', next) ∧ ans.calm = true ∧
      ∀ sw', next = some sw' → s'.left env sw' < s.left env sw := by
  cases sw with
  | ps =>
    refine ⟨.done, _, _, rfl, rfl, ?_⟩
    intro sw' he
    cases he
    exact Nat.lt_succ_self _
  | kill todo killed =>
    cases todo with
    | cons pid todo =>
      refine ⟨.killed false, _, _, rfl, rfl, ?_⟩
      intro sw' he
      cases he
      exact Nat.lt_succ_self _
    | nil =>
      cases killed with
      | zero => exact ⟨.done, _, _, rfl, rfl, fun sw' he => by cases he⟩
      | succ n => exact ⟨.stat .absent, _, _, rfl, rfl, fun sw' he => by cases he⟩

/-- Nothing has changed that a thread looks at, sweeps and hooks apart. -/
structure Still (s s' : Sys) : Prop where
  conns : s'.conns = s.conns
  core : s'.core = s.core
  nGen : s'.nGen = s.nGen
  children : s'.children = s.children
  owner : s'.owner = s.owner
  timer : s'.timer = s.timer
  main : s'.main = s.main
  exited : s'.exited = s.exited
  now : s'.now = s.now
  monitors : ∀ k, (s.monitors k).pc.sweeping = false → s'.monitors k = s.monitors k

theorem Still.refl (s : Sys) : Still s s := ⟨rfl, rfl, rfl, rfl, rfl, rfl, rfl, rfl, rfl, fun _ _ => rfl⟩

/-- The sweep of monitor `g` goes on. -/
theorem Still.sweep {s₀ s₁ : Sys} {sw : Sweep} {ans : Answer} {next : Option Sweep}
    (h : Still s₀ s) (by' : Option Gen) (pc : MonPc) (hg : (s₀.monitors g).pc.sweeping = true)
    (hsw : sweepStep env s sw ans = some (s₁, next)) :
    Still s₀ ((s₁.setLocked by').setMonPc g pc) := by
  obtain ⟨hooks, n, calls, rfl⟩ := sweepStep_eq hsw
  refine ⟨h.conns, h.core, h.nGen, h.children, h.owner, h.timer, h.main, h.exited, h.now, ?_⟩
  intro k hk
  have hkg : k ≠ g := by
    rintro rfl
    rw [hg] at hk
    cases hk
  simpa [hkg] using h.monitors k hk

/-- **The mutex is given back.** -/
theorem unlock (hr : (supervisor env).Reachable s) (hex : s.exited = none) :
    ∃ s', (supervisor env).PathBy Winding s s' ∧ s'.locked = none ∧ Still s s' := by
  cases hl : s.locked with
  | none => exact ⟨s, .refl, hl, .refl s⟩
  | some g =>
    have hg : (s.monitors g).pc.sweeping = true := locked_of_reachable hr g hl
    -- the monitor that holds it is led through its sweep
    have hlead : (supervisor env).Leads Winding
        (fun t => Still s t ∧ t.locked = some g) (fun t => Still s t ∧ t.locked = none) := by
      refine Leads.descend (fun t => t.monLeft env (t.monitors g).pc) fun n => Leads.of_step ?_
      rintro t ht ⟨⟨hstill, hlt⟩, hn⟩
      have hsw : (t.monitors g).pc.sweeping = true := locked_of_reachable ht g hlt
      cases hpc : (t.monitors g).pc with
      | sweep sw =>
        rw [hpc] at hn
        have hn : t.left env sw = n := hn
        obtain ⟨ans, t₁, next, hst, hcalm, hless⟩ := sweep_gets_on env t sw
        have hext : t.exited = none := hstill.exited.trans hex
        have hstep : ∀ t', t.monSweep env g sw ans = some t' →
            (supervisor env).step t (.monitor g ans) t' := by
          intro t' he
          show step env t (.monitor g ans) = some t'
          simp only [step, hext, Option.isSome_none, Bool.false_eq_true, if_false, Sys.monStep, hpc]
          exact he
        cases next with
        | none =>
          refine ⟨.monitor g ans, _, hcalm, hstep _ (by rw [Sys.monSweep, hst]; rfl), .inl ?_⟩
          exact ⟨hstill.sweep none .done hg hst, rfl⟩
        | some sw' =>
          refine ⟨.monitor g ans, _, hcalm, hstep _ (by rw [Sys.monSweep, hst]; rfl), .inr ?_⟩
          have hlock : t₁.locked = some g := by
            obtain ⟨hooks, m, calls, rfl⟩ := sweepStep_eq hst
            exact hlt
          have hlocked : t₁.setLocked (some g) = t₁ := by
            rw [← hlock]
            rfl
          refine ⟨⟨?_, hlock⟩, ?_⟩
          · have hs := hstill.sweep (some g) (.sweep sw') hg hst
            rw [hlocked] at hs
            exact hs
          · have hless := hless sw' rfl
            have hpc' : ((t₁.setMonPc g (.sweep sw')).monitors g).pc = .sweep sw' := by simp
            rw [hpc', ← hn]
            exact hless
      | _ =>
        rw [hpc] at hsw
        cases hsw
    obtain ⟨s', hpath, hstill, hlock⟩ := hlead s hr ⟨.refl s, hl⟩
    exact ⟨s', hpath, hlock, hstill⟩

/-! ## The core -/

/-- The thread of connection `c` is at `pc`. -/
structure At (c : ConnId) (pc : ConnPc) (s : Sys) : Prop where
  exited : s.exited = none
  pc : (s.conns c).pc = pc

/-- The thread of connection `c` is at `pc`, and the monitor of the core that runs is at `mpc`. -/
structure Watching (c : ConnId) (pc : ConnPc) (g : Gen) (mpc : MonPc) (s : Sys) : Prop
    extends At c pc s where
  latest : s.nGen = g + 1
  running : s.core ≠ .stopped
  monitor : (s.monitors g).pc = mpc

/-- The core is down. -/
structure Down (c : ConnId) (pc : ConnPc) (s : Sys) : Prop extends At c pc s where
  core : s.core = .stopped

variable {pc : ConnPc} {mpc : MonPc} {A B : Sys → Prop}

theorem Still.at (h : Still s s') (hs : At c pc s) : At c pc s' where
  exited := h.exited.trans hs.exited
  pc := by
    rw [h.conns]
    exact hs.pc

theorem Still.watching (h : Still s s') (hmpc : mpc.sweeping = false) (hs : Watching c pc g mpc s) :
    Watching c pc g mpc s' where
  toAt := h.at hs.toAt
  latest := h.nGen.trans hs.latest
  running := by
    rw [h.core]
    exact hs.running
  monitor := by
    rw [h.monitors g (by rw [hs.monitor]; exact hmpc)]
    exact hs.monitor

/-- A monitor takes a step. -/
theorem mon_leads (g : Gen) (h : ∀ s, (supervisor env).Reachable s → A s → s.exited = none ∧
      ∃ ans s', ans.calm = true ∧ s.monStep env g ans = some s' ∧ B s') :
    (supervisor env).Leads Winding A B := by
  refine Leads.of_step fun s hr hs => ?_
  obtain ⟨hex, ans, s', hcalm, hst, hb⟩ := h s hr hs
  refine ⟨.monitor g ans, s', hcalm, ?_, hb⟩
  show step env s (.monitor g ans) = some s'
  simp only [step, hex, Option.isSome_none, Bool.false_eq_true, if_false]
  exact hst

/-- A connection takes a step. -/
theorem conn_leads (c : ConnId) (h : ∀ s, (supervisor env).Reachable s → A s → s.exited = none ∧
      (s.conns c).pc.isLease = false ∧
        ∃ ans s', ans.calm = true ∧ s.connStep env c ans = some s' ∧ B s') :
    (supervisor env).Leads Winding A B := by
  refine Leads.of_step fun s hr hs => ?_
  obtain ⟨hex, hpc, ans, s', hcalm, hst, hb⟩ := h s hr hs
  refine ⟨.conn c ans, s', ⟨hcalm, hpc⟩, ?_, hb⟩
  show step env s (.conn c ans) = some s'
  simp only [step, hex, Option.isSome_none, Bool.false_eq_true, if_false]
  exact hst

/-- Whoever waits for the mutex gets it. -/
theorem lock_first (hex : ∀ s, A s → s.exited = none) (hstill : ∀ s s', Still s s' → A s → A s')
    (h : (supervisor env).Leads Winding (fun s => A s ∧ s.locked = none) B) :
    (supervisor env).Leads Winding A B := by
  refine Leads.trans ?_ h
  intro s hr hs
  obtain ⟨s', hpath, hlock, hs'⟩ := unlock hr (hex s hs)
  exact ⟨s', hpath, hstill s s' hs' hs, hlock⟩

/-- The monitor gets the mutex. -/
theorem watching_lock (hmpc : mpc.sweeping = false) (h : (supervisor env).Leads Winding
      (fun s => Watching c pc g mpc s ∧ s.locked = none) B) :
    (supervisor env).Leads Winding (Watching c pc g mpc) B :=
  lock_first (fun _ hs => hs.exited) (fun _ _ hst hs => hst.watching hmpc hs) h

/-- The monitor moves, and the rest stays. -/
theorem Watching.setMonPc (h : Watching c pc g mpc s) (mpc' : MonPc) :
    Watching c pc g mpc' (s.setMonPc g mpc') where
  exited := h.exited
  pc := h.pc
  latest := h.latest
  running := h.running
  monitor := by simp

/-- The exit of the core is handled. -/
theorem exitLock_leads (info : ExitInfo) :
    (supervisor env).Leads Winding (Watching c pc g (.exitLock info)) (Down c pc) := by
  refine watching_lock rfl (mon_leads g fun s hr hsl => ⟨hsl.1.exited, ?_⟩)
  obtain ⟨hs, hlock⟩ := hsl
  obtain ⟨-, run, hcore, hpid⟩ := exitLock_own hr hs.monitor
  refine ⟨.done, s.setStopped.setMonPc g (if run.stopRequested then .done else .push info), rfl, ?_, ?_⟩
  · simp only [Sys.monStep, hs.monitor, Sys.handleCoreExit, Sys.lockSt, hlock, hcore, hpid,
      Option.isNone_none, if_true]
  · exact ⟨⟨hs.exited, hs.pc⟩, rfl⟩

/-- The core dies if it has not, and is reaped. -/
theorem tryWait_leads :
    (supervisor env).Leads Winding (Watching c pc g .tryWait) (Down c pc) := by
  -- the core is dead
  have hdead : (supervisor env).Leads Winding
      (fun s => Watching c pc g .tryWait s ∧ ∃ info, (s.children g).life = .dead info)
      fun s => ∃ info, Watching c pc g (.exitLock info) s := by
    refine mon_leads g fun s hr hsl => ⟨hsl.1.exited, ?_⟩
    obtain ⟨hs, info, hlife⟩ := hsl
    refine ⟨.done, (s.setLife g .reaped).setMonPc g (.exitLock info), rfl, ?_, info, ?_⟩
    · simp only [Sys.monStep, hs.monitor, Sys.monTryWait, hlife]
    · exact ⟨⟨hs.exited, hs.pc⟩, hs.latest, hs.running, by simp⟩
  have hdie : (supervisor env).Leads Winding (Watching c pc g .tryWait)
      fun s => Watching c pc g .tryWait s ∧ ∃ info, (s.children g).life = .dead info := by
    intro s hr hs
    cases hlife : (s.children g).life with
    | alive =>
      refine ⟨s.setLife g (.dead ⟨none, none⟩), .tail .refl trivial (a := .die g ⟨none, none⟩) ?_, ?_⟩
      · show step env s (.die g ⟨none, none⟩) = _
        simp only [step, hs.exited, Option.isSome_none, Bool.false_eq_true, if_false, Sys.dieStep,
          hlife, if_true]
      · exact ⟨⟨⟨hs.exited, hs.pc⟩, hs.latest, hs.running, hs.monitor⟩, ⟨none, none⟩, by simp⟩
    | dead info => exact ⟨s, .refl, hs, info, hlife⟩
    | reaped =>
      have hphase : (s.lifeView.mon g).phase.polling := by
        rw [show (s.lifeView.mon g).phase = (s.monitors g).pc.phase from rfl, hs.monitor]
        trivial
      exact absurd hlife ((base_of_reachable hr).polling g hphase)
  exact hdie.trans (hdead.bind fun info => exitLock_leads info)

/-- The monitor is past this turn of its loop. -/
theorem sleep_leads : (supervisor env).Leads Winding (Watching c pc g .sleep) (Down c pc) := by
  refine watching_lock rfl (Leads.trans (mon_leads g fun s hr hsl => ⟨hsl.1.exited, ?_⟩)
    (tryWait_leads (g := g)))
  obtain ⟨hs, hlock⟩ := hsl
  refine ⟨.done, s.setMonPc g .tryWait, rfl, ?_, hs.setMonPc _⟩
  simp only [Sys.monStep, hs.monitor, Sys.lockSt, hlock, Option.isNone_none, if_true]

/-- A signal has been decided on or sent. -/
theorem signal_leads :
    (supervisor env).Leads Winding (fun s => Watching c pc g .arm s ∨ Watching c pc g .sendKill s)
      (Down c pc) := by
  refine Leads.or ?_ ?_
  · refine Leads.trans (mon_leads g fun s hr hs => ⟨hs.exited, ?_⟩) (sleep_leads (g := g))
    refine ⟨.done, s.monArm g, rfl, by simp only [Sys.monStep, hs.monitor], ?_⟩
    exact ⟨⟨hs.exited, hs.pc⟩, hs.latest, hs.running, by simp⟩
  · refine Leads.trans (mon_leads g fun s hr hs => ⟨hs.exited, ?_⟩) (sleep_leads (g := g))
    refine ⟨.done, s.monSendKill g, rfl, by simp only [Sys.monStep, hs.monitor], ?_⟩
    exact ⟨⟨hs.exited, hs.pc⟩, hs.latest, hs.running, by simp⟩

/-- The monitor signals the core, or waits for the deadline. -/
theorem escalate_leads :
    (supervisor env).Leads Winding (Watching c pc g .escalate) (Down c pc) := by
  refine Leads.trans (mon_leads g fun s hr hs => ⟨hs.exited, ?_⟩)
    ((signal_leads (g := g)).or (sleep_leads (g := g)))
  refine ⟨.done, s.monEscalate g, rfl, by simp only [Sys.monStep, hs.monitor], ?_⟩
  unfold Sys.monEscalate
  split
  · exact .inl (.inl ⟨⟨hs.exited, hs.pc⟩, hs.latest, hs.running, by simp⟩)
  · split
    · exact .inl (.inr (hs.setMonPc _))
    · exact .inr (hs.setMonPc _)

theorem check_leads : (supervisor env).Leads Winding (Watching c pc g .check) (Down c pc) := by
  refine watching_lock rfl (Leads.trans (mon_leads g fun s hr hsl => ⟨hsl.1.exited, ?_⟩)
    ((escalate_leads (g := g)).or (sleep_leads (g := g))))
  obtain ⟨hs, hlock⟩ := hsl
  refine ⟨.done, _, rfl, by simp only [Sys.monStep, hs.monitor, Sys.monCheck, Sys.lockSt, hlock,
    Option.isNone_none, if_true]; rfl, ?_⟩
  split
  · exact .inl (hs.setMonPc _)
  · exact .inr (hs.setMonPc _)

/-- The monitor is created first. -/
theorem absent_leads (hpc : pc ≠ .spawnMonitor g) :
    (supervisor env).Leads Winding (Watching c pc g .absent) (Down c pc) := by
  refine Leads.trans (Leads.of_step fun s hr hs => ?_) (tryWait_leads (g := g))
  have hphase : (s.lifeView.mon g).phase = .absent := MonPc.absent_iff.mpr hs.monitor
  have hlt : g < s.lifeView.nGen := by
    rw [show s.lifeView.nGen = s.nGen from rfl, hs.latest]
    exact Nat.lt_succ_self g
  obtain ⟨d, hd⟩ := (tracked_of_reachable hr).unwatched g hlt hphase
  have hdpc : (s.conns d).pc = .spawnMonitor g := spawnMonitor_iff.mp hd
  have hdc : c ≠ d := by
    rintro rfl
    exact hpc (hs.pc.symm.trans hdpc)
  refine ⟨.conn d .done, s.spawnMonitor d g, ⟨rfl, by rw [hdpc]; rfl⟩, ?_, ?_⟩
  · show step env s (.conn d .done) = _
    simp only [step, hs.exited, Option.isSome_none, Bool.false_eq_true, if_false, Sys.connStep, hdpc]
  · exact ⟨⟨hs.exited, by simpa [hdc] using hs.pc⟩, hs.latest, hs.running, by simp⟩

/-- **The core comes down**, whatever its monitor is doing, and no other thread need move than
the monitor and the one that is about to create it. -/
theorem core_stops (hpc : ∀ g, pc ≠ .spawnMonitor g) :
    (supervisor env).Leads Winding (At c pc) (Down c pc) := by
  intro s hr hs
  cases hcore : s.core with
  | stopped => exact ⟨s, .refl, hs, hcore⟩
  | running run =>
    obtain ⟨g, hn, -⟩ := (base_of_reachable hr).latest run hcore
    have hopen := (tracked_of_reachable hr).running_open run g hcore hn
    have hwatch : ∀ mpc, (s.monitors g).pc = mpc → Watching c pc g mpc s := by
      intro mpc hmpc
      refine ⟨hs, hn, ?_, hmpc⟩
      rw [hcore]
      exact CoreProc.noConfusion
    cases hmpc : (s.monitors g).pc with
    | absent => exact absent_leads (hpc g) s hr (hwatch _ hmpc)
    | tryWait => exact tryWait_leads s hr (hwatch _ hmpc)
    | check => exact check_leads s hr (hwatch _ hmpc)
    | escalate => exact escalate_leads s hr (hwatch _ hmpc)
    | arm => exact signal_leads s hr (.inl (hwatch _ hmpc))
    | sendKill => exact signal_leads s hr (.inr (hwatch _ hmpc))
    | sleep => exact sleep_leads s hr (hwatch _ hmpc)
    | exitLock info => exact exitLock_leads info s hr (hwatch _ hmpc)
    | push | pushWrite | downHook | sweepLock | sweep | done =>
      refine absurd ?_ hopen
      rw [show (s.lifeView.mon g).phase = (s.monitors g).pc.phase from rfl, hmpc]
      trivial

end EasyTierMac.Supervisor
