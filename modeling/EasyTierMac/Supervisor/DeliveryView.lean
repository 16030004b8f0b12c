import EasyTierMac.Delivery.Order
import EasyTierMac.Supervisor.Streams

/-!
# The lifecycle lines of a stream refine ordered delivery

The core transitions of a run are numbered: generation `g` starts with transition
`2 * g + 1` and stops with transition `2 * g + 2`. `deliveryView d` keeps the number
of the latest transition, the numbers of the lines `core_started`,
`core_stopped` and `core_exited` on the stream of connection `d`, and what the
threads that write such lines to it still owe: the thread of `d` itself (`none`)
and the monitor of each generation `g` (`some g`). Every step of the supervisor is
invisible there or a step of `Delivery.machine` (`delivery`).
-/

namespace EasyTierMac.Supervisor

open Function (update)
open Delivery (Debt Act)

/-! ## The view -/

/-- The number of the transition into the reported state. -/
def Report.number : Report → Nat
  | .running g => 2 * g + 1
  | .stopped g => 2 * g + 2

/-- `core_started`, `core_stopped` or `core_exited`. -/
def Event.isLifecycle : Event → Bool
  | .coreStarted .. | .coreStopped _ | .coreExited .. => true
  | _ => false

/-- The transition a lifecycle line reports. An `already_stopped` before the first
start reports none. -/
def Line.transition (l : Line) : Option Nat :=
  if l.ev.isLifecycle then l.about.map Report.number else none

/-- What a thread owes that is about to write the line. -/
def Line.debt (l : Line) : Debt Nat :=
  match l.transition with
  | some k => .owes k
  | none => .clear

/-- The lifecycle line the thread of a connection is going to write to its own stream. -/
def ConnPc.debt : ConnPc → Debt Nat
  | .helloWrite l | .reply l => l.debt
  | .spawnMonitor g | .upHook g => .owes (Report.running g).number
  | .stopWait r g => if r = .ownerDrop then .clear else .waits (Report.stopped g).number
  | .stopHook r g => if r = .ownerDrop then .clear else .owes (Report.stopped g).number
  | _ => .clear

/-- The lifecycle line the monitor of generation `g` is going to write to the stream of
connection `d`. Before it looks the owner up, that may be any connection. -/
def MonPc.debt (d : ConnId) (g : Gen) : MonPc → Debt Nat
  | .push _ => .owes (Report.stopped g).number
  | .pushWrite _ c => if c = d then .owes (Report.stopped g).number else .clear
  | _ => .clear

/-- An earlier transition than `k` is still to be reported. -/
def owesBefore (k : Nat) (x : Debt Nat) : Bool := x.about.any (· < k)

theorem le_of_owesBefore {k j : Nat} {x : Debt Nat} (h : owesBefore k x = false)
    (hx : x.about = some j) : k ≤ j := by
  unfold owesBefore at h
  rw [hx] at h
  simpa using h

namespace Sys

variable (s : Sys) (d : ConnId)

/-- The number of the latest core transition. -/
def transitions : Nat :=
  match s.core with
  | .running _ => 2 * s.nGen - 1
  | .stopped => 2 * s.nGen

/-- The core transition that a step makes. -/
def nextTransition : Action → Option Nat
  | .conn c (.spawn (.child _ _)) =>
    if (s.conns c).pc = .startLock ∧ s.core = .stopped then some (Report.running s.nGen).number
    else none
  | .monitor g _ =>
    match (s.monitors g).pc, s.core with
    | .exitLock _, .running r =>
      if r.pid = (s.monitors g).pid then some (Report.stopped g).number else none
    | _, _ => none
  | _ => none

def deliveryView : Delivery.State (Option Gen) Nat where
  cur := s.transitions
  debt
    | none => (s.conns d).pc.debt
    | some g => (s.monitors g).pc.debt d g
  out := (s.conns d).out.filterMap Line.transition

/-! ## The view of each update -/

variable {s d}

theorem deliveryView_ext {t : Sys} {v : Delivery.State (Option Gen) Nat}
    (hcur : t.transitions = v.cur) (hown : (t.conns d).pc.debt = v.debt none)
    (hmon : ∀ g, (t.monitors g).pc.debt d g = v.debt (some g))
    (hout : (t.conns d).out.filterMap Line.transition = v.out) : t.deliveryView d = v := by
  obtain ⟨cur, debt, out⟩ := v
  unfold deliveryView
  congr 1
  funext i
  cases i with
  | none => exact hown
  | some g => exact hmon g

/-- The thread of the connection moves, after an update that the view does not show. -/
theorem deliveryView_setPc {t : Sys} {pc : ConnPc} (ht : t.deliveryView d = s.deliveryView d) :
    (t.setPc d pc).deliveryView d = (s.deliveryView d).setDebt none pc.debt := by
  rw [← ht]
  refine deliveryView_ext rfl ?_ (fun g => ?_) ?_
  · simp [Delivery.State.setDebt]
  · rfl
  · simp [Delivery.State.setDebt, deliveryView]

theorem deliveryView_setMonPc {t : Sys} {g : Gen} {pc : MonPc}
    (ht : t.deliveryView d = s.deliveryView d) :
    (t.setMonPc g pc).deliveryView d = (s.deliveryView d).setDebt (some g) (pc.debt d g) := by
  rw [← ht]
  refine deliveryView_ext rfl rfl (fun k => ?_) rfl
  by_cases hk : k = g
  · subst hk
    simp [Delivery.State.setDebt]
  · simp [Delivery.State.setDebt, hk, deliveryView]

/-- An update of a monitor that the view does not show. -/
theorem deliveryView_modMon {g : Gen} {f : Monitor → Monitor}
    (hpc : (f (s.monitors g)).pc.debt d g = (s.monitors g).pc.debt d g) :
    (s.modMon g f).deliveryView d = s.deliveryView d := by
  refine deliveryView_ext rfl rfl (fun k => ?_) rfl
  by_cases hk : k = g
  · subst hk
    simpa [deliveryView] using hpc
  · simp [deliveryView, hk]

/-- An update of a connection that the view does not show. -/
theorem deliveryView_modConn {c : ConnId} {f : Conn → Conn}
    (hpc : (f (s.conns c)).pc.debt = (s.conns c).pc.debt)
    (hout : (f (s.conns c)).out.filterMap Line.transition =
      (s.conns c).out.filterMap Line.transition) :
    (s.modConn c f).deliveryView d = s.deliveryView d := by
  refine deliveryView_ext rfl ?_ (fun _ => rfl) ?_
  · by_cases hd : d = c
    · subst hd
      simpa [deliveryView] using hpc
    · simp [deliveryView, hd]
  · by_cases hd : d = c
    · subst hd
      simpa [deliveryView] using hout
    · simp [deliveryView, hd]

theorem deliveryView_setBuf {c : ConnId} (rest : List UInt8) :
    (s.setBuf c rest).deliveryView d = s.deliveryView d := deliveryView_modConn rfl rfl

/-- A line that is not about the lifecycle does not show. -/
theorem deliveryView_write {c : ConnId} {l : Line} (hl : l.transition = none) :
    (s.write c l).deliveryView d = s.deliveryView d :=
  deliveryView_modConn rfl (by simp [hl])

theorem deliveryView_runHook (s : Sys) (env : Env) (call : HookCall) (joiner : Option ConnId)
    (st : Stat) : (s.runHook env call joiner st).deliveryView d = s.deliveryView d := by
  obtain ⟨hooks, n, he⟩ := s.runHook_eq env call joiner st
  rw [he]
  rfl

/-- Marking the core is no transition. -/
theorem deliveryView_markStop {c : ConnId} {r : HookReason} {run : Running}
    (hcore : s.core = .running run) : (s.markStop c r run).deliveryView d = s.deliveryView d := by
  refine deliveryView_ext ?_ rfl (fun _ => rfl) rfl
  show transitions _ = s.transitions
  unfold transitions
  rw [hcore]
  rfl

/-- `start` spawns the next generation, and its thread owes the report. -/
theorem deliveryView_spawn {pid : Int32} {port : UInt16} :
    ((s.spawnChild pid port).setPc d (.spawnMonitor s.nGen)).deliveryView d =
      { s.deliveryView d with cur := (Report.running s.nGen).number }.setDebt none
        (.owes (Report.running s.nGen).number) := by
  refine deliveryView_ext ?_ ?_ (fun _ => rfl) ?_
  · show 2 * (s.nGen + 1) - 1 = 2 * s.nGen + 1
    omega
  · simp [Delivery.State.setDebt, ConnPc.debt]
  · simp [Delivery.State.setDebt, deliveryView]

/-- The current report is about the latest transition. -/
theorem report_number {r : Report} (h : s.report = some r) : r.number = s.transitions := by
  unfold report at h
  unfold transitions
  split at h
  · cases h
  · next g hcore hn =>
    cases h
    rw [hcore, hn]
    show 2 * g + 1 = 2 * (g + 1) - 1
    omega
  · next g hcore hn =>
    cases h
    rw [hcore, hn]
    rfl

end Sys

theorem sweepStep_deliveryView {env : Env} {s s' : Sys} {d : ConnId} {sw : Sweep} {ans : Answer}
    {next : Option Sweep} (h : sweepStep env s sw ans = some (s', next)) :
    s'.deliveryView d = s.deliveryView d := by
  obtain ⟨hooks, n, calls, rfl⟩ := sweepStep_eq h
  rfl

/-! ## Every step -/

/-- A step that makes a transition in the view makes it in the supervisor. -/
def DeliveryLabel (s : Sys) (a : Action) (b : Act (Option Gen) Nat) : Prop :=
  ∀ k, b.Passes k → s.nextTransition a = some k

def DeliveryStep (d : ConnId) (s : Sys) (a : Action) (s' : Sys) : Prop :=
  s'.deliveryView d = s.deliveryView d ∨
    ∃ b, DeliveryLabel s a b ∧ Delivery.Step (s.deliveryView d) b (s'.deliveryView d)

variable {env : Env} {s s' : Sys}

/-- The thread of connection `d` itself. -/
theorem ConnMove.deliveryStep_own {d : ConnId} {ans : Answer} (h : ConnMove env s d ans s')
    (hrun : ∀ run, s.core = .running run → 0 < s.nGen)
    (hstop : ∀ r g, (s.conns d).pc = .stopWait r g → g < s.nGen) :
    DeliveryStep d s (.conn d ans) s' := by
  have hdebt : ∀ {pc : ConnPc}, (s.conns d).pc = pc → (s.deliveryView d).debt none = pc.debt :=
    fun hpc => congrArg ConnPc.debt hpc
  -- the thread moves, after an update the view does not show: it owes the same, or something else
  have quiet : ∀ {t : Sys} {pc pc' : ConnPc}, (s.conns d).pc = pc' →
      t.deliveryView d = s.deliveryView d → pc.debt = pc'.debt →
      DeliveryStep d s (.conn d ans) (t.setPc d pc) := by
    intro t pc pc' hpc ht he
    refine .inl ?_
    rw [Sys.deliveryView_setPc ht, he]
    exact Delivery.State.setDebt_eq_self (hdebt hpc)
  have move : ∀ {t : Sys} {pc : ConnPc} {b : Act (Option Gen) Nat},
      t.deliveryView d = s.deliveryView d → (∀ k, ¬ b.Passes k) →
      Delivery.Step (s.deliveryView d) b ((s.deliveryView d).setDebt none pc.debt) →
      DeliveryStep d s (.conn d ans) (t.setPc d pc) :=
    fun ht hl hs => .inr ⟨_, fun k hk => (hl k hk).elim, by rw [Sys.deliveryView_setPc ht]; exact hs⟩
  -- the reply to a command that found the core as it was asked for
  have answer : ∀ {l : Line}, (s.conns d).pc.debt = .clear → l.ev.isLifecycle = true →
      l.about = s.report → DeliveryStep d s (.conn d ans) (s.setPc d (.reply l)) := by
    intro l hpc hev hab
    cases hr : s.report with
    | none =>
      have hl : l.debt = .clear := by simp [Line.debt, Line.transition, hab, hr]
      exact quiet rfl rfl (hl.trans hpc.symm)
    | some r =>
      have hl : l.debt = .owes (s.deliveryView d).cur := by
        simp [Line.debt, Line.transition, hev, hab, hr, Sys.report_number hr, Sys.deliveryView]
      refine move (b := .owe none) rfl (fun _ hk => hk) ?_
      show Delivery.Step _ _ ((s.deliveryView d).setDebt none l.debt)
      rw [hl]
      exact .owe
  cases h with
  | gate hpc | reject hpc | helloFail hpc | busy _ hpc | kickSkip hpc | loopFail hpc
  | endedKicked hpc | endedOwner hpc | giveUpOther _ hpc | join hpc | helloSnap _ hpc
  | statusSnap _ hpc | startFailed _ hpc => exact quiet hpc rfl rfl
  | helloDrop hpc | helloRefuse hpc | loopEnd hpc | loopError hpc | loopStart hpc
  | loopStatus hpc | loopStop hpc => exact quiet hpc (Sys.deliveryView_setBuf _) rfl
  | giveUp _ hpc => exact quiet (t := s.clearOwner) hpc rfl rfl
  | accept _ hpc => exact quiet (t := s.setOwner d) hpc (Sys.deliveryView_modConn rfl rfl) rfl
  | @takeover _ old _ hpc =>
    have hkick : (s.kick old.conn).deliveryView d = s.deliveryView d :=
      Sys.deliveryView_modConn rfl rfl
    have hset : ((s.kick old.conn).setOwner d).deliveryView d = (s.kick old.conn).deliveryView d :=
      Sys.deliveryView_modConn rfl rfl
    exact quiet hpc (hset.trans hkick) rfl
  | @helloAccept l rest takeover hpc =>
    refine .inl ((Sys.deliveryView_modConn ?_ rfl).trans (Sys.deliveryView_setBuf (s := s) rest))
    show Debt.clear = ((s.setBuf d rest).conns d).pc.debt
    simp [hpc, ConnPc.debt]
  | refused hpc => exact quiet hpc (Sys.deliveryView_write (by simp [Line.transition])) rfl
  | kickWrite hpc => exact quiet hpc (Sys.deliveryView_write rfl) rfl
  | kickShutdown hpc => exact quiet hpc (Sys.deliveryView_modConn rfl rfl) rfl
  | refill => exact .inl (Sys.deliveryView_modConn rfl rfl)
  | loopBlank => exact .inl (Sys.deliveryView_setBuf _)
  | stopAgain | exit => exact .inl rfl
  | sweep hpc hsw | swept hpc hsw => exact quiet hpc (sweepStep_deliveryView hsw) rfl
  | @helloWrite _ l hpc | @reply _ l hpc =>
    cases hl : l.transition with
    | none =>
      refine quiet hpc (Sys.deliveryView_write hl) ?_
      simp [ConnPc.debt, Line.debt, hl]
    | some k =>
      have hk : (s.deliveryView d).debt none = .owes k := by
        rw [hdebt hpc]
        simp [ConnPc.debt, Line.debt, hl]
      refine .inr ⟨.deliver none, fun _ hp => hp.elim, ?_⟩
      have hview : ((s.write d l).setPc d .loop).deliveryView d =
          { s.deliveryView d with out := (s.deliveryView d).out ++ [k] }.setDebt none .clear := by
        refine Sys.deliveryView_ext rfl ?_ (fun _ => rfl) ?_
        · simp [Delivery.State.setDebt, ConnPc.debt]
        · simp [Delivery.State.setDebt, Sys.deliveryView, hl]
      rw [hview]
      exact .deliver hk
  | startRunning _ hpc => exact answer (by rw [hpc]; rfl) rfl rfl
  | @stopIdle _ r _ hpc =>
    by_cases hr : r = .ownerDrop
    · subst hr
      exact quiet hpc rfl rfl
    · have he : Sys.afterStopPc r false none s.report =
          .reply ⟨.coreStopped "already_stopped", s.report⟩ := by cases r <;> simp_all [Sys.afterStopPc]
      unfold Sys.afterStop
      rw [he]
      exact answer (by rw [hpc]; rfl) rfl rfl
  | @spawn pid port hlock hpc hcore hpid =>
    refine .inr ⟨.passBy none (Report.running s.nGen).number, ?_, ?_⟩
    · rintro k rfl
      simp [Sys.nextTransition, hpc, hcore]
    · rw [Sys.deliveryView_spawn]
      refine .passBy ?_
      show s.transitions < 2 * s.nGen + 1
      unfold Sys.transitions
      rw [hcore]
      exact Nat.lt_succ_self _
  | @spawnMonitor _ g hpc =>
    refine .inr ⟨.drop (some g), fun _ hp => hp.elim, ?_⟩
    have hview : (s.spawnMonitor d g).deliveryView d =
        (s.deliveryView d).setDebt (some g) .clear := by
      refine Sys.deliveryView_ext rfl ?_ (fun k => ?_) ?_
      · simp [Delivery.State.setDebt, hdebt hpc, ConnPc.debt]
      · by_cases hk : k = g
        · subst hk
          simp [Delivery.State.setDebt, MonPc.debt]
        · simp [Delivery.State.setDebt, hk, Sys.deliveryView]
      · simp [Delivery.State.setDebt, Sys.deliveryView]
    rw [hview]
    exact .drop
  | upHook hpc => exact quiet hpc (Sys.deliveryView_runHook ..) rfl
  | @stopMark _ r run hlock hpc hcore =>
    by_cases hr : r = .ownerDrop
    · subst hr
      exact quiet hpc (Sys.deliveryView_markStop hcore) rfl
    · refine move (b := .wait none) (Sys.deliveryView_markStop hcore) (fun _ hp => hp) ?_
      rw [show (ConnPc.stopWait r (s.nGen - 1)).debt = .waits _ from if_neg hr]
      refine .wait ?_
      have hpos := hrun run hcore
      show s.transitions < 2 * (s.nGen - 1) + 2
      unfold Sys.transitions
      rw [hcore]
      show 2 * s.nGen - 1 < 2 * (s.nGen - 1) + 2
      omega
  | @stopSeen _ r g hlock hpc hcore =>
    by_cases hr : r = .ownerDrop
    · subst hr
      exact quiet hpc rfl rfl
    · refine move (b := .redeem none) rfl (fun _ hp => hp) ?_
      rw [show (ConnPc.stopHook r g).debt = .owes _ from if_neg hr]
      refine .redeem ((hdebt hpc).trans (if_neg hr)) ?_
      have hg : g < s.nGen := hstop r g hpc
      show 2 * g + 2 ≤ s.transitions
      unfold Sys.transitions
      rw [hcore]
      exact Nat.mul_le_mul_left 2 (Nat.succ_le_of_lt hg)
  | @stopHook st r g hpc =>
    refine quiet hpc (Sys.deliveryView_runHook ..) ?_
    cases r <;> rfl

/-- The threads of the other connections. -/
theorem ConnMove.deliveryStep_other {c d : ConnId} {ans : Answer} (h : ConnMove env s c ans s')
    (hd : d ≠ c) : DeliveryStep d s (.conn c ans) s' := by
  have hpc : (s'.conns d).pc.debt = (s.conns d).pc.debt := by rw [(h.of_ne hd).1]
  -- at most the thread tells the connection that it was displaced
  have hout : (s'.conns d).out.filterMap Line.transition =
      (s.conns d).out.filterMap Line.transition := by
    rcases h.out_cases d with he | ⟨l, hw, he⟩
    · rw [he]
    · cases hw with
      | kicked => simp [he, Line.transition, Event.isLifecycle]
      | refuse | hello | reply => exact absurd rfl hd
  cases h with
  | @spawn pid port hlock hst hcore hpid =>
    refine .inr ⟨.pass (Report.running s.nGen).number, ?_, ?_⟩
    · rintro k rfl
      simp [Sys.nextTransition, hst, hcore]
    · have hview : ((s.spawnChild pid port).setPc c (.spawnMonitor s.nGen)).deliveryView d =
          { s.deliveryView d with cur := (Report.running s.nGen).number } := by
        refine Sys.deliveryView_ext ?_ hpc (fun _ => rfl) hout
        show 2 * (s.nGen + 1) - 1 = 2 * s.nGen + 1
        omega
      rw [hview]
      refine .pass ?_
      show s.transitions < 2 * s.nGen + 1
      unfold Sys.transitions
      rw [hcore]
      exact Nat.lt_succ_self _
  | @spawnMonitor _ g =>
    refine .inr ⟨.drop (some g), fun _ hp => hp.elim, ?_⟩
    have hview : (s.spawnMonitor c g).deliveryView d =
        (s.deliveryView d).setDebt (some g) .clear := by
      refine Sys.deliveryView_ext rfl hpc (fun k => ?_) hout
      by_cases hk : k = g
      · subst hk
        simp [Delivery.State.setDebt, MonPc.debt]
      · simp [Delivery.State.setDebt, hk, Sys.deliveryView]
    rw [hview]
    exact .drop
  | @stopMark _ r run hlock hst hcore =>
    refine .inl (Sys.deliveryView_ext ?_ hpc (fun _ => rfl) hout)
    have hmark := Sys.deliveryView_markStop (d := d) (c := c) (r := r) hcore
    exact congrArg Delivery.State.cur hmark
  | sweep _ hsw | swept _ hsw =>
    obtain ⟨hooks, n, calls, rfl⟩ := sweepStep_eq hsw
    exact .inl (Sys.deliveryView_ext rfl hpc (fun _ => rfl) hout)
  | upHook | stopHook =>
    refine .inl (Sys.deliveryView_ext ?_ hpc (fun _ => ?_) hout)
    · simp [Sys.transitions, Sys.deliveryView]
    · simp [Sys.deliveryView]
  | _ => exact .inl (Sys.deliveryView_ext rfl hpc (fun _ => rfl) hout)

theorem MonMove.deliveryStep {d : ConnId} {g : Gen} {ans : Answer} (h : MonMove env s g ans s')
    (hown : ∀ info, (s.monitors g).pc = .exitLock info → s.nGen = g + 1) :
    DeliveryStep d s (.monitor g ans) s' := by
  have hdebt : ∀ {pc : MonPc}, (s.monitors g).pc = pc →
      (s.deliveryView d).debt (some g) = pc.debt d g :=
    fun hpc => congrArg (MonPc.debt d g) hpc
  -- what stays invisible: a change of `pc` between two points with the same debt
  have quiet : ∀ {t : Sys} {pc pc' : MonPc}, (s.monitors g).pc = pc' →
      t.deliveryView d = s.deliveryView d → pc.debt d g = pc'.debt d g →
      DeliveryStep d s (.monitor g ans) (t.setMonPc g pc) := by
    intro t pc pc' hpc ht he
    refine .inl ?_
    rw [Sys.deliveryView_setMonPc ht, he]
    exact Delivery.State.setDebt_eq_self (hdebt hpc)
  cases h with
  | poll hpc | waitErr hpc | checkYes _ hpc | checkNo _ hpc | decideKill hpc | decideWait hpc
  | wake _ hpc | exitOther _ hpc | sweepSkip _ hpc => exact quiet hpc rfl rfl
  | reap hpc => exact quiet (t := s.setLife g .reaped) hpc rfl rfl
  | term hpc => exact quiet (t := s.sendSignal g .term) hpc rfl rfl
  | sweepLock _ hpc => exact quiet (t := s.setLocked (some g)) hpc rfl rfl
  | arm hpc => exact .inl (Sys.deliveryView_modMon (by rw [hpc]; rfl))
  | kill hpc => exact .inl (Sys.deliveryView_modMon (s := s.sendSignal g .kill) (by
      show MonPc.debt d g .sleep = (s.monitors g).pc.debt d g
      rw [hpc]
      rfl))
  | @exit _ info run hlock hpc hcore hpid =>
    have hn : s.nGen = g + 1 := hown info hpc
    have hlt : s.transitions < 2 * g + 2 := by
      unfold Sys.transitions
      rw [hcore, hn]
      exact Nat.lt_succ_self (2 * g + 1)
    have hlabel : s.nextTransition (.monitor g ans) = some (Report.stopped g).number := by
      simp [Sys.nextTransition, hpc, hcore, hpid]
    have hstopped : s.setStopped.deliveryView d =
        { s.deliveryView d with cur := (Report.stopped g).number } := by
      refine Sys.deliveryView_ext ?_ rfl (fun _ => rfl) rfl
      show 2 * s.nGen = 2 * g + 2
      rw [hn]
      rfl
    have hview : ∀ pc : MonPc, (s.setStopped.setMonPc g pc).deliveryView d =
        { s.deliveryView d with cur := (Report.stopped g).number }.setDebt (some g)
          (pc.debt d g) := by
      intro pc
      rw [Sys.deliveryView_setMonPc rfl, hstopped]
    -- a stop that was asked for is reported by the stopping connection, not from here
    cases run.stopRequested with
    | false =>
      refine .inr ⟨.passBy (some g) (Report.stopped g).number, ?_, ?_⟩
      · rintro k rfl
        exact hlabel
      · exact hview (.push info) ▸ .passBy hlt
    | true =>
      refine .inr ⟨.pass (Report.stopped g).number, ?_, ?_⟩
      · rintro k rfl
        exact hlabel
      · have hclear : { s.deliveryView d with cur := (Report.stopped g).number }.setDebt (some g)
            .clear = { s.deliveryView d with cur := (Report.stopped g).number } :=
          Delivery.State.setDebt_eq_self (hdebt hpc)
        have hdone := (hview .done).trans hclear
        exact hdone ▸ .pass hlt
  | pushNone _ hpc =>
    refine .inr ⟨.drop (some g), fun _ hp => hp.elim, ?_⟩
    rw [Sys.deliveryView_setMonPc rfl]
    exact .drop
  | @push _ info o _ hpc =>
    by_cases ho : o.conn = d
    · exact quiet hpc rfl (if_pos ho)
    · refine .inr ⟨.drop (some g), fun _ hp => hp.elim, ?_⟩
      rw [Sys.deliveryView_setMonPc rfl, show (MonPc.pushWrite info o.conn).debt d g = .clear from
        if_neg ho]
      exact .drop
  | @pushWrite _ info c hpc =>
    by_cases hc : c = d
    · subst hc
      refine .inr ⟨.deliver (some g), fun _ hp => hp.elim, ?_⟩
      have hview : (s.monPushWrite g info c).deliveryView c =
          { s.deliveryView c with out := (s.deliveryView c).out ++ [(Report.stopped g).number] }.setDebt
            (some g) .clear := by
        unfold Sys.monPushWrite
        rw [Sys.deliveryView_setMonPc rfl]
        congr 1
        refine Sys.deliveryView_ext rfl ?_ (fun _ => rfl) ?_
        · simp [Sys.deliveryView]
        · simp [Sys.deliveryView, Line.transition, Event.isLifecycle]
      rw [hview]
      exact .deliver ((hdebt hpc).trans (if_pos rfl))
    · refine quiet hpc ?_ (if_neg hc).symm
      refine Sys.deliveryView_ext rfl ?_ (fun _ => rfl) ?_
      · simp [Sys.deliveryView, Ne.symm hc]
      · simp [Sys.deliveryView, Ne.symm hc]
  | downHook hpc => exact quiet hpc (Sys.deliveryView_runHook ..) rfl
  | sweep hpc hsw => exact quiet hpc (sweepStep_deliveryView hsw) rfl
  | @swept _ _ s₁ hpc hsw =>
    have he : s₁.deliveryView d = s.deliveryView d := sweepStep_deliveryView hsw
    exact quiet (t := s₁.setLocked none) hpc he rfl

theorem OtherMove.deliveryStep {d : ConnId} {a : Action} (h : OtherMove env s a s') :
    DeliveryStep d s a s' := by
  cases h with
  | main _ hsw | serve _ hsw =>
    have he := sweepStep_deliveryView (d := d) hsw
    exact .inl he
  | arrive | hangup => exact .inl (Sys.deliveryView_modConn rfl rfl)
  | @accept uid hmain =>
    by_cases hd : d = s.nConns
    · subst hd
      refine .inr ⟨.reopen none, fun _ hp => hp.elim, ?_⟩
      have hview : ({ s with
          conns := update s.conns s.nConns { pc := .auth, uid := uid }
          nConns := s.nConns + 1 } : Sys).deliveryView s.nConns =
            { s.deliveryView s.nConns with out := [] }.setDebt none .clear := by
        refine Sys.deliveryView_ext rfl ?_ (fun _ => rfl) ?_
        · simp [Delivery.State.setDebt, ConnPc.debt]
        · simp [Delivery.State.setDebt]
      rw [hview]
      exact .reopen
    · refine .inl (Sys.deliveryView_ext rfl ?_ (fun _ => rfl) ?_)
      · simp [hd, Sys.deliveryView]
      · simp [hd, Sys.deliveryView]
  | _ => exact .inl rfl

/-- **The lifecycle lines of connection `d` refine ordered delivery.** -/
def delivery (env : Env) (d : ConnId) :
    Transition.Refinement (supervisor env) (Delivery.machine (Option Gen) 0) where
  view s := s.deliveryView d
  label := DeliveryLabel
  init := by
    refine Sys.deliveryView_ext rfl rfl (fun _ => rfl) rfl
  step {s s' a} hr hs := by
    have hB := base_of_reachable hr
    cases (step_move hs).2 with
    | @conn c ans _ h =>
      by_cases hd : d = c
      · subst hd
        refine h.deliveryStep_own (fun run hcore => ?_) fun r g hpc => ?_
        · obtain ⟨g, hn, -, -⟩ := hB.latest run hcore
          exact Nat.lt_of_lt_of_eq (Nat.succ_pos g) hn.symm
        · exact Lifecycle.Awaited.of_reachable ((lifecycle env).reachable hr) d r g
            (congrArg ConnPc.call hpc)
      · exact h.deliveryStep_other hd
    | monitor h => exact h.deliveryStep fun info hpc => (exitLock_own hr hpc).1
    | other h => exact h.deliveryStep

end EasyTierMac.Supervisor
