import EasyTierMac.Supervisor.LeaseView
import EasyTierMac.Supervisor.Knowledge

/-!
# How a death is reported

The death of a core is reported on one of two ways: the monitor pushes
`core_exited` to the owner it finds, unless the core was marked `stop_requested`,
and then the thread that marked it writes `core_stopped` to its own peer.
`Announces` is the step condition under which the report reaches the owner that
knows of the core: nobody else stops it (`OwnerStops`), and the lease stays where it
is until the monitor has looked the owner up. `Announced` follows the report from
the death of the core to the line on the stream, one constructor for each stage.
-/

namespace EasyTierMac.Supervisor

variable {env : Env} {s s' : Sys}

/-! ## The step condition -/

namespace Sys

variable (s : Sys)

/-- A stop was requested for the running core. -/
def marked : Bool :=
  match s.core with
  | .running r => r.stopRequested
  | .stopped => false

/-- Generation `g` is dead, and its monitor has not looked the owner up yet. -/
def unreported (g : Gen) : Bool :=
  match (s.children g).life, (s.monitors g).pc with
  | .dead _, _ | _, .exitLock _ | _, .push _ => true
  | _, _ => false

/-- The owner knows of a generation that is dead and not reported yet. -/
def owesDeath : Bool :=
  s.owner.any fun o => (List.range s.nGen).any fun g => (s.conns o.conn).knows g && s.unreported g

end Sys

/-- The step tells the owner of a marked core, stops a core that another connection
owns and knows of, or takes the lease from an owner that is still to be told of a
death. -/
def silences (s : Sys) : Action → Bool
  | .conn c _ =>
    match (s.conns c).pc with
    | .stopLock _ => s.core != .stopped &&
        s.owner.any fun o => o.conn != c && (s.conns o.conn).knows (s.nGen - 1)
    | .lease true => s.owesDeath
    | .giveUp => s.owner.any (fun o => o.id == (s.conns c).id) && s.owesDeath
    | pc => pc.asks && s.marked && s.owner.any fun o => o.conn == c
  | _ => false

/-- `try_wait` reports no error, and the step silences no death. -/
def Announces (s : Sys) (a : Action) : Prop := NoWaitError s a ∧ silences s a = false

instance : ∀ s a, Decidable (Announces s a) := fun _ _ => inferInstanceAs (Decidable (_ ∧ _))

/-! ## Whose stop it is -/

/-- An owner that knows of a marked core marked it itself, and waits for its end. -/
def OwnerStops (s : Sys) : Prop :=
  ∀ run o, s.core = .running run → run.stopRequested = true → s.owner = some o →
    (s.conns o.conn).knows (s.nGen - 1) = true →
    (s.conns o.conn).pc = .stopWait .requested (s.nGen - 1)

theorem Sys.marked_of_core {run : Running} (hcore : s.core = .running run)
    (hreq : run.stopRequested = true) : s.marked = true := by
  unfold Sys.marked
  rw [hcore]
  exact hreq

/-- The owner stops the core for a command, not for its teardown. -/
theorem requested_of_owner (hr : (supervisor env).Reachable s) {o : OwnerSlot} {r : HookReason}
    (ho : s.owner = some o) (hpc : (s.conns o.conn).pc = .stopLock r) : r = .requested := by
  rcases stopReasons_of_reachable hr o.conn r hpc with rfl | rfl
  · rfl
  · obtain ⟨hholds, -, -⟩ := (owned_of_reachable hr).owner o.slot (Sys.leaseView_owner ho)
    have hstage : (s.leaseView.member o.conn).stage = .torn := congrArg ConnPc.stage hpc
    have hholds : (s.leaseView.member o.conn).stage.holds := hholds
    rw [hstage] at hholds
    exact hholds.elim

/-- While the core runs, a thread that waits for its end stays where it is. -/
theorem ConnMove.eq_of_stopWait {c : ConnId} {ans : Answer} (h : ConnMove env s c ans s')
    {r : HookReason} {g : Gen} {run : Running} (hpc : (s.conns c).pc = .stopWait r g)
    (hcore : s.core = .running run) : s' = s := by
  cases h with
  | stopAgain => rfl
  | refill hpc' => rcases hpc' with hpc' | hpc' <;> simp [hpc] at hpc'
  | _ => simp_all

theorem OwnerStops.conn (hO : OwnerStops s) (hr : (supervisor env).Reachable s) {c : ConnId}
    {ans : Answer} (hp : silences s (.conn c ans) = false) (h : ConnMove env s c ans s') :
    OwnerStops s' := by
  intro run o hcore hreq ho hk
  rcases h.core_cases with ⟨hc, hn, -⟩ | ⟨-, -, pid, port, -, hc, -⟩ |
    ⟨r, run', hpc, hcore', hc, hn, hpc', -⟩
  · rw [hc] at hcore
    rw [hn] at hk ⊢
    rcases h.owner_cases with he | ⟨t, hpc, -, he, -⟩ | ⟨-, -, he⟩
    · rw [he] at ho
      rcases (Move.conn h).knows_cases hk with hold | ⟨⟨ans', ha⟩, hasks⟩
      · have hwait := hO run o hcore hreq ho hold
        by_cases hoc : o.conn = c
        · rw [hoc] at hwait ⊢
          rw [h.eq_of_stopWait hwait hcore]
          exact hwait
        · rw [(h.of_ne hoc).1]
          exact hwait
      · -- a marked core is not told to its owner
        injection ha with hco
        have hmarked := Sys.marked_of_core hcore hreq
        rw [← hco] at hasks
        cases hpc : (s.conns c).pc <;> simp_all [silences, ConnPc.asks]
    · rw [he] at ho
      injection ho with ho
      -- a new owner has been told of no core yet
      have hun := (unaware_of_reachable hr).of_early (.conn h) (c := c) (by rw [hpc]; rfl)
        (s.nGen - 1)
      rw [← ho, hun] at hk
      cases hk
    · rw [he] at ho
      cases ho
  · rw [hc] at hcore
    injection hcore with hcore
    rw [← hcore] at hreq
    cases hreq
  -- the core gets marked: by its owner, who waits from now on, or by one that silences it
  · have howner : s.owner = some o := by
      rcases h.owner_cases with he | ⟨t, hpc'', -⟩ | ⟨hpc'', -⟩
      · rw [← he]
        exact ho
      · rw [hpc] at hpc''
        cases hpc''
      · rw [hpc] at hpc''
        cases hpc''
    by_cases hoc : o.conn = c
    · have hr' := requested_of_owner hr howner (hoc ▸ hpc)
      rw [hoc, hpc', hn, hr']
    · rw [hn] at hk
      rcases (Move.conn h).knows_cases hk with hold | ⟨⟨ans', ha⟩, -⟩
      · simp [silences, hpc, hcore', howner, hoc, hold] at hp
      · injection ha with hco
        exact absurd hco.symm hoc

theorem OwnerStops.step (hO : OwnerStops s) (hr : (supervisor env).Reachable s) {a : Action}
    (hp : silences s a = false) (h : Move env s a s') : OwnerStops s' := by
  cases h with
  | conn h => exact hO.conn hr hp h
  | @monitor g ans _ h =>
    intro run o hcore hreq ho hk
    rw [h.owner_eq] at ho
    rw [h.nGen_eq] at hk ⊢
    obtain ⟨out, he⟩ := h.conns_eq o.conn
    rw [he]
    rcases (Move.monitor h).knows_cases hk with hold | ⟨⟨ans', ha⟩, -⟩
    · exact hO run o (h.core_running hcore) hreq ho hold
    · cases ha
  | other h =>
    intro run o hcore hreq ho hk
    rw [h.owner_eq] at ho
    rw [h.core_eq] at hcore
    rw [h.nGen_eq] at hk ⊢
    rcases h.conns_eq with ⟨uid, hc, -⟩ | ⟨-, hc⟩
    · by_cases hd : o.conn = s.nConns
      · rw [hc, hd, Function.update_self] at hk
        cases hk
      · rw [hc, Function.update_of_ne hd] at hk ⊢
        exact hO run o hcore hreq ho hk
    · obtain ⟨sock, closed, he⟩ := hc o.conn
      rw [he] at hk ⊢
      exact hO run o hcore hreq ho hk

theorem ownerStops_of_reachable (h : (supervisor env).ReachableBy Announces s) : OwnerStops s :=
  h.invariant (fun _ _ hcore => nomatch hcore) fun hr hO hp hs =>
    hO.step hr.reachable hp.2 (step_move hs).2

/-! ## From the death to the line -/

/-- How far the report of the death of generation `n` to connection `c` has got:
the core entry still says running, the monitor is looking the owner up, it is about
to write, or the thread of `c` stopped the core itself. `k` lines stood on the
stream when the core died. -/
inductive Announced (s : Sys) (c : ConnId) (n : Gen) (k : Nat) : Prop
  | running {run : Running} {o : OwnerSlot} (hcore : s.core = .running run)
      (hreq : run.stopRequested = false) (hn : s.nGen = n + 1) (ho : s.owner = some o)
      (hc : o.conn = c)
      (hdead : (∃ info, (s.children n).life = .dead info) ∨
        ∃ info, (s.monitors n).pc = .exitLock info)
  | push {info : ExitInfo} {o : OwnerSlot} (hpc : (s.monitors n).pc = .push info)
      (ho : s.owner = some o) (hc : o.conn = c)
  | pushWrite {info : ExitInfo} (hpc : (s.monitors n).pc = .pushWrite info c)
  | stopWait (hpc : (s.conns c).pc = .stopWait .requested n)
  | stopHook (hpc : (s.conns c).pc = .stopHook .requested n)
  | reply {l : Line} (hpc : (s.conns c).pc = .reply l) (hev : l.ev.isEnd = true)
      (hab : l.about = some (.stopped n))
  | written {l : Line} (hl : l ∈ (s.conns c).out.drop k) (hev : l.ev.isEnd = true)
      (hab : l.about = some (.stopped n))

namespace Announced

variable {c : ConnId} {n : Gen} {k : Nat} {a : Action}

/-! ### The thread that stopped the core -/

theorem step_stopWait (hT : Told s c n k) (h : Move env s a s')
    (hpc : (s.conns c).pc = .stopWait .requested n) : Announced s' c n k := by
  rcases h.own_or_keep hT.accepted with ⟨ans, -, hm⟩ | he
  · cases hm with
    | stopSeen _ hpc' =>
      rw [hpc] at hpc'
      injection hpc' with hr hg
      subst hr hg
      exact .stopHook (by simp)
    | stopAgain => exact .stopWait hpc
    | refill hpc' => rcases hpc' with hpc' | hpc' <;> simp [hpc] at hpc'
    | _ => simp_all
  · exact .stopWait (he.trans hpc)

theorem step_stopHook (hT : Told s c n k) (h : Move env s a s')
    (hpc : (s.conns c).pc = .stopHook .requested n) : Announced s' c n k := by
  rcases h.own_or_keep hT.accepted with ⟨ans, -, hm⟩ | he
  · cases hm with
    | stopHook hpc' =>
      rw [hpc] at hpc'
      injection hpc' with hr hg
      subst hr hg
      refine .reply (l := ⟨.coreStopped "requested", some (.stopped n)⟩) ?_ rfl rfl
      simp [Sys.afterStopPc]
    | refill hpc' => rcases hpc' with hpc' | hpc' <;> simp [hpc] at hpc'
    | _ => simp_all
  · exact .stopHook (he.trans hpc)

/-- A line that is written now stands behind the first `k`. -/
theorem of_append {l : Line} (hk : k ≤ (s.conns c).out.length)
    (hout : (s'.conns c).out = (s.conns c).out ++ [l]) (hev : l.ev.isEnd = true)
    (hab : l.about = some (.stopped n)) : Announced s' c n k := by
  refine .written (l := l) ?_ hev hab
  rw [hout, List.drop_append_of_le_length hk]
  exact List.mem_append_right _ (List.mem_singleton_self l)

theorem step_reply (hT : Told s c n k) (h : Move env s a s') {l : Line}
    (hpc : (s.conns c).pc = .reply l) (hev : l.ev.isEnd = true) (hab : l.about = some (.stopped n)) :
    Announced s' c n k := by
  rcases h.own_or_keep hT.accepted with ⟨ans, -, hm⟩ | he
  · cases hm with
    | @reply _ l' hpc' =>
      rw [hpc] at hpc'
      injection hpc' with hl
      subst hl
      exact of_append hT.len (by simp) hev hab
    | refill hpc' => rcases hpc' with hpc' | hpc' <;> simp [hpc] at hpc'
    | _ => simp_all
  · exact .reply (he.trans hpc) hev hab

theorem step_written (hT : Told s c n k) (h : Move env s a s') {l : Line}
    (hl : l ∈ (s.conns c).out.drop k) (hev : l.ev.isEnd = true)
    (hab : l.about = some (.stopped n)) : Announced s' c n k := by
  rcases h.out_cases c with he | ⟨x, -, he⟩ | ⟨he, -⟩
  · exact .written (he ▸ hl) hev hab
  · refine .written (l := l) ?_ hev hab
    rw [he, List.drop_append_of_le_length hT.len]
    exact List.mem_append_left _ hl
  · exact absurd he (Nat.ne_of_lt hT.accepted)

/-! ### The monitor -/

/-- The owner is still to be told of the death. -/
theorem owesDeath (hT : Told s c n k) {o : OwnerSlot} (ho : s.owner = some o) (hc : o.conn = c)
    (hn : n < s.nGen) (hu : s.unreported n = true) : s.owesDeath = true := by
  unfold Sys.owesDeath
  rw [ho, Option.any_some, hc]
  refine List.any_eq_true.mpr ⟨n, List.mem_range.mpr hn, ?_⟩
  rw [hT.knows, hu]
  rfl

/-- Nobody takes the lease from an owner that is still to be told of a death. -/
theorem owner_keep {d : ConnId} {ans : Answer} (h : ConnMove env s d ans s') {o : OwnerSlot}
    (ho : s.owner = some o) (hd : s.owesDeath = true)
    (hp : silences s (.conn d ans) = false) : s'.owner = s.owner := by
  rcases h.owner_cases with he | ⟨t, hpc, ht, -⟩ | ⟨hpc, ⟨o', ho', hid⟩, -⟩
  · exact he
  · rcases ht with hnone | rfl
    · rw [ho] at hnone
      cases hnone
    · simp [silences, hpc, hd] at hp
  · simp [silences, hpc, ho', hid, hd] at hp

theorem step_pushWrite (hr : (supervisor env).Reachable s) (hT : Told s c n k)
    (h : Move env s a s') {info : ExitInfo} (hpc : (s.monitors n).pc = .pushWrite info c) :
    Announced s' c n k := by
  cases h with
  | conn h =>
    rw [← monitor_keep hr h (by simp [hpc])] at hpc
    exact .pushWrite hpc
  | @monitor g ans _ h =>
    by_cases hg : n = g
    · subst hg
      cases h with
      | @pushWrite _ info' c' hpc' =>
        rw [hpc] at hpc'
        injection hpc' with hi hc
        subst hi hc
        exact of_append (l := ⟨.coreExited info.code info.signal, some (.stopped n)⟩) hT.len
          (by simp) rfl rfl
      | _ => simp_all
    · rw [← h.of_ne hg] at hpc
      exact .pushWrite hpc
  | other h =>
    rw [← h.monitors_eq] at hpc
    exact .pushWrite hpc

theorem step_push (hr : (supervisor env).Reachable s) (hT : Told s c n k) (hp : Announces s a)
    (h : Move env s a s') {info : ExitInfo} {o : OwnerSlot}
    (hpc : (s.monitors n).pc = .push info) (ho : s.owner = some o) (hc : o.conn = c) :
    Announced s' c n k := by
  have hn : n < s.nGen := lt_nGen_of_monitor hr (by simp [hpc])
  have hd : s.owesDeath = true := by
    refine owesDeath hT ho hc hn ?_
    unfold Sys.unreported
    rw [hpc]
    cases (s.children n).life <;> rfl
  cases h with
  | conn h =>
    have ho' := owner_keep h ho hd hp.2
    rw [← monitor_keep hr h (by simp [hpc])] at hpc
    exact .push hpc (ho'.trans ho) hc
  | @monitor g ans _ h =>
    by_cases hg : n = g
    · subst hg
      cases h with
      | pushNone _ _ hnone =>
        rw [ho] at hnone
        cases hnone
      | @push _ info' o' _ hpc' ho' =>
        rw [ho] at ho'
        injection ho' with ho'
        subst ho' hc
        have hwrite : ((s.setMonPc n (.pushWrite info' o.conn)).monitors n).pc =
            .pushWrite info' o.conn := by simp
        exact .pushWrite hwrite
      | _ => simp_all
    · rw [← h.of_ne hg] at hpc
      exact .push hpc (h.owner_eq.trans ho) hc
  | other h =>
    rw [← h.monitors_eq] at hpc
    exact .push hpc (h.owner_eq.trans ho) hc

/-! ### Before the `Stopped` transition -/

/-- The monitor of a dead generation makes the `Stopped` transition, and goes on to
look the owner up. -/
theorem push_of_exit (hr : (supervisor env).Reachable s) {g : Gen} {ans : Answer}
    (h : MonMove env s g ans s') {run : Running} {info : ExitInfo} (hcore : s.core = .running run)
    (hreq : run.stopRequested = false) (hpc : (s.monitors g).pc = .exitLock info) :
    ∃ info, (s'.monitors g).pc = .push info := by
  obtain ⟨-, run', hcore', hpid⟩ := exitLock_own hr hpc
  cases h with
  | @exit _ info' run'' _ _ hcore'' =>
    rw [hcore] at hcore''
    injection hcore'' with he
    subst he
    exact ⟨info', by simp [hreq]⟩
  | exitOther _ _ hother => exact absurd hpid (hother run' hcore')
  | _ => simp_all

/-- Whoever marks the core now is its owner, and reports the end to its own peer. -/
theorem stopWait_of_mark (hr : (supervisor env).Reachable s) (hT : Told s c n k) {d : ConnId}
    {ans : Answer} (hp : silences s (.conn d ans) = false) {run : Running} {o : OwnerSlot}
    {r : HookReason} (hcore : s.core = .running run) (hn : s.nGen = n + 1) (ho : s.owner = some o)
    (hc : o.conn = c) (hpc : (s.conns d).pc = .stopLock r)
    (hpc' : (s'.conns d).pc = .stopWait r (s.nGen - 1)) : Announced s' c n k := by
  by_cases hdc : d = c
  · subst hdc hc
    have hr' : r = .requested := requested_of_owner hr ho hpc
    rw [hn, hr'] at hpc'
    exact .stopWait hpc'
  · have hk := hT.knows
    have hne : c ≠ d := Ne.symm hdc
    simp [silences, hpc, hcore, ho, hc, hne, hn, hk] at hp

theorem step_running (hr : (supervisor env).Reachable s) (hT : Told s c n k) (hp : Announces s a)
    (h : Move env s a s') {run : Running} {o : OwnerSlot} (hcore : s.core = .running run)
    (hreq : run.stopRequested = false) (hn : s.nGen = n + 1) (ho : s.owner = some o)
    (hc : o.conn = c)
    (hdead : (∃ info, (s.children n).life = .dead info) ∨
      ∃ info, (s.monitors n).pc = .exitLock info) : Announced s' c n k := by
  have hu : s.unreported n = true := by
    unfold Sys.unreported
    rcases hdead with ⟨info, hl⟩ | ⟨info, hx⟩
    · rw [hl]
    · rw [hx]
      cases (s.children n).life <;> rfl
  -- the death is owed from here on, and `Announces` forbids what would swallow it
  have hd : s.owesDeath = true :=
    owesDeath hT ho hc (Nat.lt_of_lt_of_eq (Nat.lt_succ_self n) hn.symm) hu
  cases h with
  | @conn d ans _ h =>
    rcases h.core_cases with ⟨hcs, hns, hch⟩ | ⟨-, hst, -⟩ | ⟨r, run', hpc, -, -, -, hpc', -⟩
    · refine .running (hcs.trans hcore) hreq (hns.trans hn) ((owner_keep h ho hd hp.2).trans ho)
        hc ?_
      rcases hdead with ⟨info, hl⟩ | ⟨info, hx⟩
      · exact .inl ⟨info, by rw [hch]; exact hl⟩
      · exact .inr ⟨info, by rw [monitor_keep hr h (by simp [hx])]; exact hx⟩
    · rw [hcore] at hst
      cases hst
    · exact stopWait_of_mark hr hT hp.2 hcore hn ho hc hpc hpc'
  | @monitor g ans _ h =>
    by_cases hx : ∃ info, (s.monitors g).pc = .exitLock info
    · obtain ⟨info, hx⟩ := hx
      have hgn : g = n := Nat.succ.inj ((exitLock_own hr hx).1.symm.trans hn)
      subst hgn
      obtain ⟨info', hpush⟩ := push_of_exit hr h hcore hreq hx
      exact .push hpush (h.owner_eq.trans ho) hc
    · have hcs : s'.core = s.core := h.core_eq.resolve_right hx
      refine .running (hcs.trans hcore) hreq (h.nGen_eq.trans hn) (h.owner_eq.trans ho) hc ?_
      -- only the monitor of the core itself takes its status away
      by_cases hgn : n = g
      · subst hgn
        have hl := hdead.resolve_right hx
        rcases h.reap_cases with he | hexit
        · exact .inl (by rw [he]; exact hl)
        · exact .inr hexit
      · rw [h.children_of_ne hgn, h.of_ne hgn]
        exact hdead
  | other h =>
    refine .running (h.core_eq.trans hcore) hreq (h.nGen_eq.trans hn) (h.owner_eq.trans ho) hc ?_
    rcases hdead with ⟨info, hl⟩ | ⟨info, hx⟩
    · exact .inl ⟨info, h.dead_of_dead hl⟩
    · exact .inr ⟨info, by rw [h.monitors_eq]; exact hx⟩

/-- **The report goes on.** -/
theorem step (hA : Announced s c n k) (hr : (supervisor env).Reachable s) (hT : Told s c n k)
    (hp : Announces s a) (h : Move env s a s') : Announced s' c n k := by
  cases hA with
  | running hcore hreq hn ho hc hdead => exact step_running hr hT hp h hcore hreq hn ho hc hdead
  | push hpc ho hc => exact step_push hr hT hp h hpc ho hc
  | pushWrite hpc => exact step_pushWrite hr hT h hpc
  | stopWait hpc => exact step_stopWait hT h hpc
  | stopHook hpc => exact step_stopHook hT h hpc
  | reply hpc hev hab => exact step_reply hT h hpc hev hab
  | written hl hev hab => exact step_written hT h hl hev hab

end Announced

end EasyTierMac.Supervisor
