import EasyTierMac.Lifecycle.Tracking

/-!
# What a monitor signals, and whom

`Escalation` is the whole history of one monitor: nothing sent; SIGTERM sent and
the deadline about to be set; waiting for the deadline; SIGKILL sent. Its four
constructors are the only shapes the signal list of a generation can have.

`Marking` says why: a monitor escalates only after a `stop` marked its own
generation. The monitor recognises its generation by the pid alone, which is
sound because a monitor in its poll loop watches an unreaped child, and no other
generation has the pid of an unreaped child (`Base.eq_latest`).
-/

namespace EasyTierMac.Lifecycle

open Function (update_apply)
open Supervisor (Gen ConnId Running Signal Sig TERM_GRACE)

variable {v v' : State} {b : Act}

/-- The signals the monitor of generation `g` has sent. -/
def State.sent (v : State) (g : Gen) : List Signal := v.signals.filter fun x => x.gen = g

/-- Some `stop` found generation `g` running. -/
def State.Marked (v : State) (g : Gen) : Prop := ∃ x ∈ v.stopCalls, x.gen = g

/-- Phases of a monitor that exists and is not between a signal and its record. -/
def Phase.quiet : Phase → Prop
  | .absent | .arm | .sendKill => False
  | _ => True

/-- The signals `l` that monitor `m` of generation `g` has sent by time `now`. -/
inductive Escalation (g : Gen) (now : Nat) (m : Mon) : List Signal → Prop
  | calm (hdl : m.termDeadline = none) (hk : m.killSent = false)
      (hph : m.phase = .absent ∨ m.phase.quiet) : Escalation g now m []
  | arming {t : Nat} (hk : m.killSent = false) (hph : m.phase = .arm) (ht : t ≤ now) :
      Escalation g now m [⟨g, m.pid, .term, t⟩]
  | waiting {t d : Nat} (hdl : m.termDeadline = some d) (hk : m.killSent = false)
      (hph : m.phase.quiet ∨ m.phase = .sendKill ∧ d ≤ now) (ht : t + TERM_GRACE ≤ d) :
      Escalation g now m [⟨g, m.pid, .term, t⟩]
  | killed {t t' d : Nat} (hdl : m.termDeadline = some d) (hk : m.killSent = true)
      (hph : m.phase.quiet) (ht : t + TERM_GRACE ≤ t') :
      Escalation g now m [⟨g, m.pid, .term, t⟩, ⟨g, m.pid, .kill, t'⟩]

namespace Escalation

variable {g : Gen} {now now' : Nat} {m : Mon} {l : List Signal}

theorem tick (h : Escalation g now m l) (hle : now ≤ now') : Escalation g now' m l := by
  cases h with
  | calm hdl hk hph => exact .calm hdl hk hph
  | arming hk hph ht => exact .arming hk hph (Nat.le_trans ht hle)
  | waiting hdl hk hph ht =>
    exact .waiting hdl hk (hph.imp_right fun hp => ⟨hp.1, Nat.le_trans hp.2 hle⟩) ht
  | killed hdl hk hph ht => exact .killed hdl hk hph ht

/-- Without a monitor nothing was sent. -/
theorem eq_nil (h : Escalation g now m l) (hm : m.phase = .absent) : l = [] := by
  cases h with
  | calm => rfl
  | arming _ hph _ => rw [hm] at hph; cases hph
  | waiting _ _ hph _ =>
    rcases hph with hph | ⟨hph, -⟩
    · rw [hm] at hph; exact hph.elim
    · rw [hm] at hph; cases hph
  | killed _ _ hph _ => rw [hm] at hph; exact hph.elim

/-- Moving a monitor between phases that send nothing changes nothing. -/
theorem setPhase (h : Escalation g now m l) {p : Phase} (hm : m.phase ≠ .arm) (hp : p.quiet) :
    Escalation g now { m with phase := p } l := by
  cases h with
  | calm hdl hk _ => exact .calm hdl hk (.inr hp)
  | arming _ hph _ => exact absurd hph hm
  | waiting hdl hk _ ht => exact .waiting hdl hk (.inl hp) ht
  | killed hdl hk _ ht => exact .killed hdl hk hp ht

/-- SIGTERM, when none was sent. -/
theorem term (h : Escalation g now m l) (hdl : m.termDeadline = none) (hm : m.phase ≠ .arm) :
    Escalation g now { m with phase := .arm } (l ++ [⟨g, m.pid, .term, now⟩]) := by
  cases h with
  | calm _ hk _ => exact .arming hk rfl (Nat.le_refl _)
  | arming _ hph _ => exact absurd hph hm
  | waiting hdl' => rw [hdl] at hdl'; cases hdl'
  | killed hdl' => rw [hdl] at hdl'; cases hdl'

/-- The deadline is set from a clock that is not behind the SIGTERM. -/
theorem arm (h : Escalation g now m l) (hm : m.phase = .arm) :
    Escalation g now { m with phase := .sleep, termDeadline := some (now + TERM_GRACE) } l := by
  cases h with
  | calm _ _ hph => rw [hm] at hph; rcases hph with hph | hph <;> cases hph
  | arming hk _ ht => exact .waiting rfl hk (.inl trivial) (Nat.add_le_add_right ht _)
  | waiting _ _ hph _ => rw [hm] at hph; rcases hph with hph | ⟨hph, -⟩ <;> cases hph
  | killed _ _ hph _ => rw [hm] at hph; cases hph

theorem decideKill (h : Escalation g now m l) {d : Nat} (hdl : m.termDeadline = some d)
    (hsent : m.killSent = false) (hm : m.phase ≠ .arm) (hnow : d ≤ now) :
    Escalation g now { m with phase := .sendKill } l := by
  cases h with
  | calm hdl' => rw [hdl] at hdl'; cases hdl'
  | arming _ hph _ => exact absurd hph hm
  | waiting hdl' hk _ ht =>
    rw [hdl] at hdl'
    injection hdl' with hd
    subst hd
    exact .waiting hdl hk (.inr ⟨rfl, hnow⟩) ht
  | killed _ hk => rw [hsent] at hk; cases hk

/-- SIGKILL, once the deadline was found to have passed. -/
theorem kill (h : Escalation g now m l) (hm : m.phase = .sendKill) :
    Escalation g now { m with phase := .sleep, killSent := true }
      (l ++ [⟨g, m.pid, .kill, now⟩]) := by
  cases h with
  | calm _ _ hph => rw [hm] at hph; rcases hph with hph | hph <;> cases hph
  | arming _ hph _ => rw [hm] at hph; cases hph
  | waiting hdl _ hph ht =>
    rcases hph with hph | ⟨-, hdue⟩
    · rw [hm] at hph; cases hph
    · exact .killed hdl rfl trivial (Nat.le_trans ht hdue)
  | killed _ _ hph _ => rw [hm] at hph; cases hph

end Escalation

/-! ## Along a run -/

theorem State.sent_addSignal (v : State) (g k : Gen) (sig : Sig) :
    (v.addSignal g sig).sent k =
      if k = g then v.sent k ++ [⟨k, (v.mon k).pid, sig, v.now⟩] else v.sent k := by
  unfold State.sent
  simp only [State.addSignal, List.filter_append]
  by_cases hk : k = g
  · simp [hk]
  · simp [hk, Ne.symm hk]

/-- The history of every monitor is one of the four shapes. -/
def Escalating (v : State) : Prop := ∀ g, Escalation g v.now (v.mon g) (v.sent g)

/-- A step that moves the monitor of generation `g` only. -/
theorem Escalating.update (hE : Escalating v) {g : Gen} {m : Mon} {l : List Signal}
    (hm : Escalation g v.now m (l.filter fun x => x.gen = g))
    (hl : ∀ k, k ≠ g → l.filter (fun x => x.gen = k) = v.sent k) {w : State}
    (hmon : w.mon = Function.update v.mon g m) (hsig : w.signals = l) (hnow : w.now = v.now) :
    Escalating w := by
  intro k
  rw [hmon, hnow, State.sent, hsig]
  by_cases hk : k = g
  · subst hk
    rw [Function.update_self]
    exact hm
  · rw [Function.update_of_ne hk, hl k hk]
    exact hE k

theorem Escalating.setPhase (hE : Escalating v) {g : Gen} {p : Phase}
    (hm : (v.mon g).phase ≠ .arm) (hp : p.quiet) : Escalating (v.setPhase g p) :=
  hE.update ((hE g).setPhase hm hp) (fun _ _ => rfl) rfl rfl rfl

/-- A step that sends one signal. -/
theorem Escalating.addSignal (hE : Escalating v) {g : Gen} {m : Mon} {sig : Sig} {w : State}
    (hm : Escalation g v.now m (v.sent g ++ [⟨g, (v.mon g).pid, sig, v.now⟩]))
    (hmon : w.mon = Function.update v.mon g m) (hsig : w.signals = (v.addSignal g sig).signals)
    (hnow : w.now = v.now) : Escalating w := by
  have hsent := v.sent_addSignal g
  refine hE.update ?_ (fun k hk => ?_) hmon hsig hnow
  · have hg := hsent g sig
    rw [if_pos rfl] at hg
    rw [← hg] at hm
    exact hm
  · have hk' := hsent k sig
    rw [if_neg hk] at hk'
    exact hk'

theorem Escalating.init : Escalating {} := fun _ => .calm rfl rfl (.inl rfl)

theorem Escalating.step (hE : Escalating v) (hB : Base v) (h : Step v b v') : Escalating v' := by
  cases h with
  | @monitor c g hc =>
    -- no monitor yet, so nothing has been sent
    have hnil := (hE g).eq_nil (hB.spawned c g hc).2.1
    refine hE.update (m := { phase := .tryWait, pid := (v.child g).pid }) (l := v.signals) ?_
      (fun _ _ => rfl) rfl rfl rfl
    rw [show v.signals.filter (fun x => x.gen = g) = [] from hnil]
    exact .calm rfl rfl (.inr trivial)
  | @term g hg hdl => exact hE.addSignal ((hE g).term hdl (by simp [hg])) rfl rfl rfl
  | @kill g hg => exact hE.addSignal ((hE g).kill hg) rfl rfl rfl
  | @arm g hg => exact hE.update ((hE g).arm hg) (fun _ _ => rfl) rfl rfl rfl
  | @decideKill g d hg hdl hsent hnow =>
    exact hE.update ((hE g).decideKill hdl hsent (by simp [hg]) hnow) (fun _ _ => rfl) rfl rfl rfl
  | tick => exact fun g => (hE g).tick (Nat.le_add_right _ _)
  | @reap g info hg hlife =>
    have hE' : Escalating (v.setLife g .reaped) := hE
    exact hE'.setPhase (by simp [hg]) trivial
  | exit hg hcore hpid =>
    have hE' : Escalating { v with core := .stopped } := hE
    refine hE'.setPhase (by simp [hg]) ?_
    split <;> trivial
  | @exitHook g hg =>
    have hE' : Escalating (v.addHook ⟨.down, some .coreExited, some g⟩) := hE
    exact hE'.setPhase (by simp [hg]) trivial
  | poll hg | waitErr hg | checkYes hg | checkNo hg | decideWait hg | wake hg | exitOther hg =>
    exact hE.setPhase (by simp [hg]) trivial
  | _ => exact hE

theorem Escalating.of_reachable (h : machine.Reachable v) : Escalating v :=
  h.invariant .init fun hr hE _ hs => hE.step (.of_reachable hr) hs

/-! ## Why -/

/-- A monitor in its poll loop whose pid the core entry names watches the latest
generation. -/
theorem Base.eq_latest (hB : Base v) {g : Gen} {run : Running} (hg : (v.mon g).phase.polling)
    (hcore : v.core = .running run) (hpid : run.pid = (v.mon g).pid) : v.nGen = g + 1 := by
  obtain ⟨k, hn, hk, -⟩ := hB.latest run hcore
  have hne : (v.mon g).phase ≠ .absent := by
    intro he
    rw [he] at hg
    exact hg
  have hlt := hB.lt_of_phase hne
  by_cases hgk : g < k
  · have hdis := hB.distinct g k hgk (by omega) (hB.polling g hg)
    rw [← hB.monPid g hne, ← hk, hpid] at hdis
    exact absurd rfl hdis
  · rw [hn] at hlt ⊢
    rw [Nat.le_antisymm (Nat.le_of_not_lt hgk) (Nat.le_of_lt_succ hlt)]

/-- Stop requests and escalations are about marked generations. -/
structure Marking (v : State) : Prop where
  core : ∀ run, v.core = .running run → run.stopRequested = true → v.Marked (v.nGen - 1)
  mon : ∀ g, (v.mon g).phase = .escalate ∨ (v.mon g).phase = .arm ∨ (v.mon g).phase = .sendKill →
    v.Marked g

theorem Marking.init : Marking {} where
  core _ h := by cases h
  mon _ h := by rcases h with h | h | h <;> cases h

theorem Marking.step (hM : Marking v) (hB : Base v) (h : Step v b v') : Marking v' := by
  obtain ⟨hcr, hmon⟩ := hM
  cases h with
  | @mark c r run hc hcore =>
    have hgrow : ∀ g, v.Marked g → ∃ x ∈ v.stopCalls ++ [⟨c, r, v.nGen - 1⟩], x.gen = g := by
      rintro g ⟨x, hx, hxg⟩
      exact ⟨x, List.mem_append_left _ hx, hxg⟩
    constructor
    · intro run' _ _
      exact ⟨⟨c, r, v.nGen - 1⟩, List.mem_append_right _ (List.mem_singleton_self _), rfl⟩
    · exact fun g hg => hgrow g (hmon g hg)
  | @checkYes g hg hreq =>
    obtain ⟨run, hcore, hpid, hstop⟩ := hreq
    have hlat := hB.eq_latest (by simp [hg, Phase.polling]) hcore hpid
    have hmark := hcr run hcore hstop
    rw [hlat, Nat.add_sub_cancel] at hmark
    refine ⟨hcr, fun k hk => ?_⟩
    by_cases hkg : k = g
    · exact hkg ▸ hmark
    · simp only [State.setPhase, update_apply, if_neg hkg] at hk
      exact hmon k hk
  | spawn hc hcore hfree =>
    refine ⟨fun run hrun hstop => ?_, hmon⟩
    injection hrun with hrun
    rw [← hrun] at hstop
    cases hstop
  | _ =>
    constructor <;>
      simp only [State.Marked, State.setPhase, State.setCall, State.addHook, State.addSignal,
        State.setLife, update_apply] at hcr hmon ⊢ <;>
      grind

theorem Marking.of_reachable (h : machine.Reachable v) : Marking v :=
  h.invariant .init fun hr hM _ hs => hM.step (.of_reachable hr) hs

/-- **Every signal hits its own core.** A step sends no signal, or one to the
still unreaped child of a generation that a `stop` had marked. -/
theorem signal_target (hB : Base v) (hM : Marking v) (h : Step v b v') :
    v'.signals = v.signals ∨ ∃ g sig,
      v'.signals = v.signals ++ [⟨g, (v.child g).pid, sig, v.now⟩] ∧
        (v.child g).life ≠ .reaped ∧ v.Marked g := by
  cases h with
  | @term g hg hdl =>
    refine .inr ⟨g, .term, ?_, hB.polling g (by simp [hg, Phase.polling]), hM.mon g (.inl hg)⟩
    rw [← hB.monPid g (by simp [hg])]
    rfl
  | @kill g hg =>
    refine .inr ⟨g, .kill, ?_, hB.polling g (by simp [hg, Phase.polling]),
      hM.mon g (.inr (.inr hg))⟩
    rw [← hB.monPid g (by simp [hg])]
    rfl
  | _ => exact .inl rfl

end EasyTierMac.Lifecycle
