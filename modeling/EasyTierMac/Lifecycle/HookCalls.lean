import EasyTierMac.Lifecycle.Signals

/-!
# One down hook for each core death

`Mirror` is the whole history of one generation as the down hooks see it: nobody
stopped it and no hook has fired; its monitor reported a crash; one caller is in
`stop` for it; that caller has fired the hook. In each shape the list of hook
calls is given, so "exactly once" is read off.

The shapes survive as long as no `stop` marks a generation that is already
marked (`OneStop`): two callers that wait for the same death both fire.
-/

namespace EasyTierMac.Lifecycle

open Function (update update_apply)
open Supervisor (Gen ConnId Running HookCall HookReason)

variable {v v' : State} {b : Act}

/-- The down hooks fired for generation `g`. -/
def State.downs (v : State) (g : Gen) : List HookCall :=
  v.hookCalls.filter fun x => x.event = .down ∧ x.gen = some g

/-- In `stop` for generation `g`. -/
def Call.busy (g : Gen) : Call → Prop
  | .stopping _ k | .lowering _ k => k = g
  | _ => False

@[simp] theorem Call.not_busy_after (g : Gen) (r : HookReason) : ¬ (Call.after r).busy g := by
  cases r <;> exact id

/-- `try_wait` reports no error, and a `stop` that finds a core running finds it
unmarked. `stop` is called for a command or for a disconnect. -/
structure OneStop (v : State) (b : Act) : Prop where
  noWaitErr : NoWaitErr v b
  unmarked : ∀ c r, b = .mark c r → ∀ run, v.core = .running run → run.stopRequested = false
  reason : ∀ c r, b = .mark c r → r = .requested ∨ r = .ownerDrop

/-- Generation `g` with its monitor in phase `p`, the callers `call`, and the
down hooks `l`. -/
inductive Mirror (g : Gen) (p : Phase) (call : ConnId → Call) (marked : Prop) :
    List HookCall → Prop
  | silent (hm : ¬ marked) (hcall : ∀ c, ¬ (call c).busy g) (hp : p ≠ .over) :
      Mirror g p call marked []
  | crashed (hm : ¬ marked) (hcall : ∀ c, ¬ (call c).busy g) (hp : p = .over) :
      Mirror g p call marked [⟨.down, some .coreExited, some g⟩]
  | stopping {c : ConnId} {r : HookReason} (hm : marked) (hr : r = .requested ∨ r = .ownerDrop)
      (hcall : ∀ d, (call d).busy g → d = c)
      (hc : call c = .stopping r g ∧ p ≠ .reporting ∨ call c = .lowering r g ∧ p = .over) :
      Mirror g p call marked []
  | stopped {r : HookReason} (hm : marked) (hr : r = .requested ∨ r = .ownerDrop)
      (hcall : ∀ c, ¬ (call c).busy g) (hp : p = .over) :
      Mirror g p call marked [⟨.down, some r, some g⟩]

namespace Mirror

variable {g : Gen} {p q : Phase} {call : ConnId → Call} {marked : Prop} {l : List HookCall}

/-- Someone is in `stop` for `g`: it is the only one, and it marked the generation. -/
theorem of_busy (h : Mirror g p call marked l) {c : ConnId} (hc : (call c).busy g) :
    ∃ r, marked ∧ l = [] ∧ (r = .requested ∨ r = .ownerDrop) ∧ (∀ d, (call d).busy g → d = c) ∧
      (call c = .stopping r g ∧ p ≠ .reporting ∨ call c = .lowering r g ∧ p = .over) := by
  cases h with
  | silent _ hcall _ => exact absurd hc (hcall c)
  | crashed _ hcall _ => exact absurd hc (hcall c)
  | @stopping d r hm hr hcall hd =>
    have hcd := hcall c hc
    subst hcd
    exact ⟨r, hm, rfl, hr, hcall, hd⟩
  | stopped _ _ hcall _ => exact absurd hc (hcall c)

theorem marked_of_busy (h : Mirror g p call marked l) {c : ConnId} (hc : (call c).busy g) :
    marked := by
  obtain ⟨-, hm, -⟩ := h.of_busy hc
  exact hm

/-- A caller that is not in `stop` for `g` moves, and still is not. -/
theorem setCall (h : Mirror g p call marked l) {c : ConnId} {k : Call} (hold : ¬ (call c).busy g)
    (hnew : ¬ k.busy g) : Mirror g p (update call c k) marked l := by
  have hkeep : ∀ d, (update call c k d).busy g → (call d).busy g := by
    intro d hd
    by_cases hdc : d = c
    · subst hdc
      rw [Function.update_self] at hd
      exact absurd hd hnew
    · rwa [Function.update_of_ne hdc] at hd
  cases h with
  | silent hm hcall hp => exact .silent hm (fun d hd => hcall d (hkeep d hd)) hp
  | crashed hm hcall hp => exact .crashed hm (fun d hd => hcall d (hkeep d hd)) hp
  | @stopping d r hm hr hcall hc =>
    have hdc : d ≠ c := by
      rintro rfl
      rcases hc with ⟨hc, -⟩ | ⟨hc, -⟩ <;> rw [hc] at hold <;> exact hold rfl
    refine .stopping hm hr (fun e he => hcall e (hkeep e he)) ?_
    rw [Function.update_of_ne hdc]
    exact hc
  | stopped hm hr hcall hp => exact .stopped hm hr (fun d hd => hcall d (hkeep d hd)) hp

/-- The monitor moves on without having settled. -/
theorem setPhase (h : Mirror g p call marked l) (hp : p ≠ .over) (hq : q ≠ .over)
    (hq' : q ≠ .reporting) : Mirror g q call marked l := by
  cases h with
  | silent hm hcall _ => exact .silent hm hcall hq
  | crashed _ _ he => exact absurd he hp
  | stopping hm hr hcall hc =>
    refine .stopping hm hr hcall (hc.imp (fun h => ⟨h.1, hq'⟩) fun h => absurd h.2 hp)
  | stopped _ _ _ he => exact absurd he hp

/-- A first `stop` marks the generation. -/
theorem mark (h : Mirror g p call marked l) {c : ConnId} {r : HookReason} (hm : ¬ marked)
    (hp : ¬ p.settled) (hr : r = .requested ∨ r = .ownerDrop) :
    Mirror g p (update call c (.stopping r g)) True l := by
  cases h with
  | silent _ hcall _ =>
    refine .stopping (c := c) trivial hr (fun d hd => ?_) (.inl ⟨Function.update_self .., ?_⟩)
    · by_contra hdc
      rw [Function.update_of_ne hdc] at hd
      exact hcall d hd
    · rintro rfl
      exact hp trivial
  | crashed _ _ he =>
    rw [he] at hp
    exact absurd trivial hp
  | stopping hm' => exact absurd hm' hm
  | stopped hm' => exact absurd hm' hm

/-- The caller in `stop` sees the core stopped. -/
theorem seen (h : Mirror g p call marked l) {c : ConnId} {r : HookReason}
    (hc : call c = .stopping r g) (hp : p.settled) :
    Mirror g p (update call c (.lowering r g)) marked l := by
  obtain ⟨r', hm, rfl, hr, hcall, hd⟩ := h.of_busy (c := c) (by rw [hc]; exact rfl)
  rcases hd with ⟨hd, hrep⟩ | ⟨hd, -⟩
  · rw [hc] at hd
    injection hd with hrr
    subst hrr
    refine .stopping (c := c) hm hr (fun e he => ?_) (.inr ⟨Function.update_self .., ?_⟩)
    · by_contra hec
      rw [Function.update_of_ne hec] at he
      exact hec (hcall e he)
    · cases p <;> first | exact hp.elim | rfl | exact absurd rfl hrep
  · rw [hc] at hd
    cases hd

/-- The caller in `stop` fires the hook and returns. -/
theorem lowered (h : Mirror g p call marked l) {c : ConnId} {r : HookReason} {k : Call}
    (hc : call c = .lowering r g) (hk : ¬ k.busy g) :
    Mirror g p (update call c k) marked (l ++ [⟨.down, some r, some g⟩]) := by
  obtain ⟨r', hm, rfl, hr, hcall, hd⟩ := h.of_busy (c := c) (by rw [hc]; exact rfl)
  rcases hd with ⟨hd, -⟩ | ⟨hd, hp⟩
  · rw [hc] at hd
    cases hd
  · rw [hc] at hd
    injection hd with hrr
    subst hrr
    refine .stopped hm hr (fun e he => ?_) hp
    by_cases hec : e = c
    · rw [hec, Function.update_self] at he
      exact hk he
    · rw [Function.update_of_ne hec] at he
      exact hec (hcall e he)

/-- The monitor makes the `Stopped` transition: it goes on to report the exit
exactly if nobody had asked for it. -/
theorem exit (h : Mirror g p call marked l) (hp : p ≠ .over)
    (hq : marked ∧ q = .over ∨ ¬ marked ∧ q = .reporting) : Mirror g q call marked l := by
  cases h with
  | silent hm hcall _ =>
    rcases hq with ⟨hm', -⟩ | ⟨-, hq⟩
    · exact absurd hm' hm
    · exact .silent hm hcall (by simp [hq])
  | crashed _ _ he => exact absurd he hp
  | stopping hm hr hcall hc =>
    rcases hq with ⟨-, hq⟩ | ⟨hm', -⟩
    · exact .stopping hm hr hcall (hc.imp (fun h => ⟨h.1, by simp [hq]⟩) fun h => ⟨h.1, hq⟩)
    · exact absurd hm hm'
  | stopped _ _ _ he => exact absurd he hp

/-- The monitor fires the hook of a crash. -/
theorem exitHook (h : Mirror g .reporting call marked l) :
    Mirror g .over call marked (l ++ [⟨.down, some .coreExited, some g⟩]) := by
  cases h with
  | silent hm hcall _ => exact .crashed hm hcall rfl
  | crashed _ _ he => cases he
  | stopping _ _ _ hc => rcases hc with ⟨-, he⟩ | ⟨-, he⟩ <;> simp at he
  | stopped _ _ _ he => cases he

end Mirror

/-! ## Along a run -/

/-- Every generation has one of the four histories, and the core entry knows
whether its generation is marked. -/
structure Mirroring (v : State) : Prop where
  mirror : ∀ g, Mirror g (v.mon g).phase v.call (v.Marked g) (v.downs g)
  marked_lt : ∀ g, v.Marked g → g < v.nGen
  requested : ∀ run, v.core = .running run → v.Marked (v.nGen - 1) → run.stopRequested = true

theorem Mirroring.init : Mirroring {} where
  mirror _ := .silent (by rintro ⟨_, hx, _⟩; cases hx) (fun _ => id) (by simp)
  marked_lt _ := by rintro ⟨_, hx, _⟩; cases hx
  requested _ h := by cases h

theorem State.downs_addHook (v : State) (x : HookCall) (g : Gen) :
    (v.addHook x).downs g = if x.event = .down ∧ x.gen = some g then v.downs g ++ [x]
      else v.downs g := by
  unfold State.downs
  simp only [State.addHook, List.filter_append]
  by_cases hx : x.event = .down ∧ x.gen = some g
  · simp [hx]
  · rw [if_neg hx, List.filter_cons_of_neg (by simpa using hx), List.filter_nil, List.append_nil]

namespace Mirroring

/-- A caller that is not in `stop` moves, and still is not. -/
theorem setCall (hM : Mirroring v) {c : ConnId} {k : Call} (hold : ∀ g, ¬ (v.call c).busy g)
    (hnew : ∀ g, ¬ k.busy g) : Mirroring (v.setCall c k) :=
  ⟨fun g => (hM.mirror g).setCall (hold g) (hnew g), hM.marked_lt, hM.requested⟩

/-- A monitor that has not settled moves, and still has not. -/
theorem setMon (hM : Mirroring v) {g : Gen} {m : Mon} (hp : (v.mon g).phase ≠ .over)
    (hq : m.phase ≠ .over) (hq' : m.phase ≠ .reporting) :
    Mirroring { v with mon := update v.mon g m } := by
  refine ⟨fun k => ?_, hM.marked_lt, hM.requested⟩
  show Mirror k (update v.mon g m k).phase v.call (v.Marked k) (v.downs k)
  by_cases hk : k = g
  · subst hk
    rw [Function.update_self]
    exact (hM.mirror k).setPhase hp hq hq'
  · rw [Function.update_of_ne hk]
    exact hM.mirror k

theorem not_marked (hM : Mirroring v) {run : Running} (hcore : v.core = .running run)
    (hreq : run.stopRequested = false) : ¬ v.Marked (v.nGen - 1) := by
  intro hm
  rw [hM.requested run hcore hm] at hreq
  cases hreq

theorem step_mark (hM : Mirroring v) (hB : Base v) (hT : Tracked v) {c : ConnId} {r : HookReason}
    (hr : r = .requested ∨ r = .ownerDrop) (hreq : ∀ run, v.core = .running run →
      run.stopRequested = false) (h : Step v (.mark c r) v') : Mirroring v' := by
  cases h with
  | @mark _ _ run hc hcore =>
    obtain ⟨g, hn, -⟩ := hB.latest run hcore
    have hg : v.nGen - 1 = g := by omega
    have hnm : ¬ v.Marked g := hg ▸ hM.not_marked hcore (hreq run hcore)
    have hmk : ∀ k, (∃ x ∈ v.stopCalls ++ [⟨c, r, v.nGen - 1⟩], x.gen = k) ↔
        v.Marked k ∨ k = g := by
      intro k
      simp only [List.mem_append, List.mem_singleton, State.Marked, or_and_right, exists_or,
        exists_eq_left, hg]
      exact or_congr_right eq_comm
    refine ⟨fun k => ?_, fun k hk => ?_, fun run' hrun' _ => ?_⟩
    · show Mirror k (v.mon k).phase (update v.call c (.stopping r (v.nGen - 1)))
        (∃ x ∈ v.stopCalls ++ [⟨c, r, v.nGen - 1⟩], x.gen = k) (v.downs k)
      rw [hg] at hmk ⊢
      by_cases hk : k = g
      · subst hk
        rw [eq_true ((hmk k).mpr (.inr rfl))]
        exact (hM.mirror k).mark hnm (hT.running_open run k hcore hn) hr
      · rw [propext (hmk k), or_iff_left hk]
        exact (hM.mirror k).setCall (by rw [hc]; exact id) fun he => hk he.symm
    · rcases (hmk k).mp hk with hk | rfl
      · exact hM.marked_lt k hk
      · show k < v.nGen
        rw [hn]
        exact Nat.lt_succ_self _
    · injection hrun' with hrun'
      rw [← hrun']

theorem step_seen (hM : Mirroring v) (hT : Tracked v) {c : ConnId} (h : Step v (.seen c) v') :
    Mirroring v' := by
  cases h with
  | @seen _ r g hc hcore =>
    refine ⟨fun k => ?_, hM.marked_lt, hM.requested⟩
    show Mirror k (v.mon k).phase (update v.call c (.lowering r g)) (v.Marked k) (v.downs k)
    by_cases hk : k = g
    · subst hk
      have hmk : v.Marked k := (hM.mirror k).marked_of_busy (c := c) (by rw [hc]; exact rfl)
      exact (hM.mirror k).seen hc (hT.settled_of_stopped hcore (hM.marked_lt k hmk))
    · have hnb : ∀ r', ¬ (Call.stopping r' g).busy k := fun _ he => hk he.symm
      exact (hM.mirror k).setCall (by rw [hc]; exact hnb r) (hnb r)

theorem step_downHook (hM : Mirroring v) {c : ConnId} (h : Step v (.downHook c) v') :
    Mirroring v' := by
  cases h with
  | @downHook _ r g hc =>
    refine ⟨fun k => ?_, hM.marked_lt, hM.requested⟩
    show Mirror k (v.mon k).phase (update v.call c (.after r)) (v.Marked k)
      ((v.addHook ⟨.down, some r, some g⟩).downs k)
    rw [State.downs_addHook]
    by_cases hk : k = g
    · subst hk
      rw [if_pos ⟨rfl, rfl⟩]
      exact (hM.mirror k).lowered hc (Call.not_busy_after k r)
    · rw [if_neg fun he => hk (Option.some.inj he.2).symm]
      refine (hM.mirror k).setCall ?_ (Call.not_busy_after k r)
      rw [hc]
      exact fun he => hk he.symm

theorem step_exit (hM : Mirroring v) (hB : Base v) (hK : Marking v) (hT : Tracked v) {g : Gen}
    (h : Step v (.exit g) v') : Mirroring v' := by
  cases h with
  | @exit _ run hg hcore hpid =>
    have hn := hT.exiting_latest hB hg
    have hreq : v.Marked g ↔ run.stopRequested = true := by
      have hn' : v.nGen - 1 = g := by rw [hn]; rfl
      exact hn' ▸ ⟨hM.requested run hcore, hK.core run hcore⟩
    refine ⟨fun k => ?_, hM.marked_lt, fun _ hc => by cases hc⟩
    simp only [State.setPhase]
    show Mirror k (update v.mon g _ k).phase v.call (v.Marked k) (v.downs k)
    by_cases hk : k = g
    · subst hk
      rw [Function.update_self]
      refine (hM.mirror k).exit (by simp [hg]) ?_
      by_cases hs : run.stopRequested = true
      · exact .inl ⟨hreq.mpr hs, if_pos hs⟩
      · exact .inr ⟨fun hm => hs (hreq.mp hm), if_neg hs⟩
    · rw [Function.update_of_ne hk]
      exact hM.mirror k

theorem step_exitHook (hM : Mirroring v) {g : Gen} (h : Step v (.exitHook g) v') :
    Mirroring v' := by
  cases h with
  | exitHook hg =>
    refine ⟨fun k => ?_, hM.marked_lt, hM.requested⟩
    show Mirror k (update v.mon g { v.mon g with phase := .over } k).phase v.call (v.Marked k)
      ((v.addHook ⟨.down, some .coreExited, some g⟩).downs k)
    rw [State.downs_addHook]
    by_cases hk : k = g
    · subst hk
      rw [Function.update_self, if_pos ⟨rfl, rfl⟩]
      exact (hg ▸ hM.mirror k).exitHook
    · rw [Function.update_of_ne hk, if_neg fun he => hk (Option.some.inj he.2).symm]
      exact hM.mirror k

theorem step (hM : Mirroring v) (hB : Base v) (hK : Marking v) (hT : Tracked v)
    (hp : OneStop v b) (h : Step v b v') : Mirroring v' := by
  -- a thread that was not busy with a generation owes it no hook
  have idle : ∀ {c k}, v.call c = k → (∀ g, ¬ k.busy g) → ∀ g, ¬ (v.call c).busy g :=
    fun hc hk => hc ▸ hk
  cases h with
  | @mark c r run hc hcore =>
    exact hM.step_mark hB hT (hp.reason c r rfl) (hp.unmarked c r rfl) (.mark hc hcore)
  | seen hc hcore => exact hM.step_seen hT (.seen hc hcore)
  | downHook hc => exact hM.step_downHook (.downHook hc)
  | exit hg hcore hpid => exact hM.step_exit hB hK hT (.exit hg hcore hpid)
  | exitHook hg => exact hM.step_exitHook (.exitHook hg)
  | exitOther hg hother => exact absurd (.exitOther hg hother) (hT.not_exitOther hB)
  | waitErr hg => exact absurd rfl (hp.noWaitErr _)
  | @spawn c pid port hc hcore hfree =>
    have hM' := hM.setCall (c := c) (k := .spawned v.nGen) (idle hc fun _ => id) fun _ => id
    refine ⟨hM'.mirror, fun g hg => Nat.lt_succ_of_lt (hM.marked_lt g hg), fun run _ hm => ?_⟩
    exact absurd (hM.marked_lt _ hm) (by simp)
  | @monitor c g hc =>
    have hM' := hM.setCall (c := c) (k := .raising g) (idle hc fun _ => id) fun _ => id
    exact hM'.setMon (by simp [(hB.spawned c g hc).2.1]) (by simp) (by simp)
  | @upHook c g hc =>
    refine ⟨fun k => ?_, hM.marked_lt, hM.requested⟩
    have hk := ((hM.mirror k).setCall (c := c) (k := .idle) (by rw [hc]; exact id) id)
    show Mirror k (v.mon k).phase (update v.call c .idle) (v.Marked k)
      ((v.addHook ⟨.up, none, some g⟩).downs k)
    rw [State.downs_addHook, if_neg (by simp)]
    exact hk
  | noStop hc hcore => exact hM.setCall (idle hc fun _ => id) fun g => Call.not_busy_after g _
  | poll hg | checkYes hg | checkNo hg | decideKill hg | decideWait hg | wake hg | arm hg =>
    exact hM.setMon (by simp [hg]) (by simp) (by simp)
  | @term g hg hdl =>
    have hM' : Mirroring (v.addSignal g .term) := ⟨hM.mirror, hM.marked_lt, hM.requested⟩
    exact hM'.setMon (by simp [hg]) (by simp) (by simp)
  | @kill g hg =>
    have hM' : Mirroring (v.addSignal g .kill) := ⟨hM.mirror, hM.marked_lt, hM.requested⟩
    exact hM'.setMon (by simp [hg]) (by simp) (by simp)
  | @reap g info hg hlife =>
    have hM' : Mirroring (v.setLife g .reaped) := ⟨hM.mirror, hM.marked_lt, hM.requested⟩
    exact hM'.setMon (by simp [hg]) (by simp) (by simp)
  | die | tick => exact ⟨hM.mirror, hM.marked_lt, hM.requested⟩

theorem of_reachable (h : machine.ReachableBy OneStop v) : Mirroring v :=
  h.invariant .init fun hr hM hp hs =>
    hM.step (.of_reachable hr.reachable) (.of_reachable hr.reachable) (.of_reachable hr.reachable)
      hp hs

end Mirroring

/-- A hook has fired for reaped generations only. -/
theorem Mirror.over_of_downs {g : Gen} {p : Phase} {call : ConnId → Call} {marked : Prop}
    {l : List HookCall} (h : Mirror g p call marked l) (hl : l ≠ []) : p = .over := by
  cases h with
  | silent => exact absurd rfl hl
  | crashed _ _ hp => exact hp
  | stopping => exact absurd rfl hl
  | stopped _ _ _ hp => exact hp

theorem Mirror.length_le_one {g : Gen} {p : Phase} {call : ConnId → Call} {marked : Prop}
    {l : List HookCall} (h : Mirror g p call marked l) : l.length ≤ 1 := by
  cases h <;> simp

/-- **Exactly one**: once the monitor is done with a generation and nobody is in
`stop` for it, one down hook has fired for it, and it says who asked. -/
theorem Mirror.downs_eq {g : Gen} {call : ConnId → Call} {marked : Prop} {l : List HookCall}
    (h : Mirror g .over call marked l) (hcall : ∀ c, ¬ (call c).busy g) :
    ∃ r, l = [⟨.down, some r, some g⟩] ∧ (r = .requested ∨ r = .ownerDrop ∨ r = .coreExited) ∧
      (r = .coreExited ↔ ¬ marked) := by
  cases h with
  | silent _ _ hp => exact absurd rfl hp
  | crashed hm _ _ => exact ⟨_, rfl, .inr (.inr rfl), iff_of_true rfl hm⟩
  | @stopping c r _ _ _ hc =>
    refine absurd ?_ (hcall c)
    rcases hc with ⟨hc, -⟩ | ⟨hc, -⟩ <;> rw [hc] <;> exact rfl
  | @stopped r hm hr _ _ =>
    refine ⟨r, rfl, hr.imp_right .inl, iff_of_false ?_ (not_not_intro hm)⟩
    rcases hr with rfl | rfl <;> simp

end EasyTierMac.Lifecycle
