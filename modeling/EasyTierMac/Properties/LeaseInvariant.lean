import EasyTierMac.Supervisor.Received
import EasyTierMac.Supervisor.Runs

/-!
# The owner slot names a screened connection that still holds the lease

The slot is written under the state lock, but its flag, its id and its writer are read
outside it, by threads at any point of `handle_connection`. The invariant that survives
every order of grants, takeovers, refusals and disconnects is the one of the abstract
lease (`Tenure.Owned`, `Tenure.Accounted`): the slot names a member under its lease
that was not told to go, and a member that had the slot and lost it was told to go or
has released it. `Screened` adds what the gate and the hello established, and a
connection that was turned away never came to a step that changes the slot or the core.
-/

namespace EasyTierMac.Supervisor

open Transition (System)

variable {env : Env} {s s' : Sys} {received : Received}

/-! ## The invariant -/

/-- In `run_command_loop`. -/
def ConnPc.inLoop : ConnPc → Bool
  | .loop | .reply _ | .startLock | .spawnMonitor _ | .upHook _ | .statusSnap => true
  | .stopLock r | .stopWait r _ | .stopHook r _ => r != .ownerDrop
  | _ => false

/-- Past the point, after the command loop, at which a connection gives its lease up. -/
def ConnPc.gaveUp : ConnPc → Bool
  | .stopLock r | .stopWait r _ | .stopHook r _ => r == .ownerDrop
  | .sweep .. | .join _ | .exit => true
  | _ => false

/-- Connection `c` is refused: it gets a refusal, or has returned without ever having
been granted the lease. -/
def TurnedAway (s : Sys) (c : ConnId) : Prop :=
  (∃ ev, (s.conns c).pc = .refuse ev) ∨ (s.conns c).pc = .closed ∧ (s.conns c).granted = false

structure LeaseInvariant (env : Env) (s : Sys) (received : Received) : Prop where
  /-- The owner was not kicked, may connect, said hello first, and is still served. -/
  owner : ∀ o, s.owner = some o →
    (s.conns o.conn).kicked = false ∧ (s.conns o.conn).allowed env ∧
      SaidHello env (received o.conn) ∧ (s.conns o.conn).pc ≠ .closed
  /-- Whoever else had the lease was kicked or has given it up. -/
  others : ∀ c, (s.conns c).granted = true → (∀ o, s.owner = some o → o.conn ≠ c) →
    (s.conns c).kicked = true ∨ (s.conns c).pc.gaveUp = true
  /-- One lease holder that was not kicked is in its command loop. -/
  single : ∀ c d, (s.conns c).granted = true → (s.conns c).kicked = false →
    (s.conns c).pc.inLoop = true → (s.conns d).granted = true → (s.conns d).kicked = false →
    (s.conns d).pc.inLoop = true → c = d
  /-- No step of a connection that is refused in the end changes the owner or the core. -/
  refused : ∀ {c : ConnId} {ans : Answer} {s' s₁ : Sys}, (supervisor env).step s (.conn c ans) s' →
    (supervisor env).PathBy (fun _ _ => True) s' s₁ → TurnedAway s₁ c →
    s'.owner = s.owner ∧ s'.core = s.core

/-! ## Stages and positions -/

theorem ConnPc.holds_of_inLoop {pc : ConnPc} (h : pc.inLoop = true) : pc.stage.holds := by
  cases pc <;> simp_all [inLoop, stage, Tenure.Stage.holds]

theorem ConnPc.gaveUp_of_torn {pc : ConnPc} (h : pc.stage = .torn) : pc.gaveUp = true := by
  cases pc with
  | stopLock r | stopWait r g | stopHook r g => cases r <;> simp_all [stage, gaveUp]
  | _ => simp_all [stage, gaveUp]

theorem accounted_of_reachable (h : (supervisor env).Reachable s) :
    Tenure.Accounted s.leaseView :=
  .of_reachable ((lease env).reachable h)

/-! ## Connections that are turned away -/

/-- A connection gets its refusal before it is granted anything. -/
theorem ungranted_of_refuse (h : (supervisor env).Reachable s) {c : ConnId} {ev : Event}
    (hpc : (s.conns c).pc = .refuse ev) : (s.conns c).granted = false := by
  suffices hall : ∀ c ev, (s.conns c).pc = .refuse ev → (s.conns c).granted = false from
    hall c ev hpc
  refine h.invariant (I := fun s => ∀ c ev, (s.conns c).pc = .refuse ev →
    (s.conns c).granted = false) ?_ ?_
  · intro c ev he
    cases he
  intro s a s' hr hI _ hs c
  have hmove := (step_move hs).2
  have hnew : ∀ d, (s.conns d).pc.stage.isNew = true → (s.conns d).granted = false :=
    (owned_of_reachable hr).isNew
  -- a connection that is neither granted nor about to take the lease stays ungranted
  have hkeep : ∀ d, (s.conns d).granted = false → (s.conns d).pc.isLease = false →
      (s'.conns d).granted = false := by
    intro d hg hl
    by_contra hne
    rcases hmove.granted_cases (eq_true_of_ne_false hne) with he | he
    · exact absurd (hg.symm.trans he) Bool.false_ne_true
    · exact absurd (hl.symm.trans he) Bool.false_ne_true
  refine hmove.forall_pc (Q := fun c pc => ∀ ev, pc = .refuse ev →
    (s'.conns c).granted = false) (fun _ he => (nomatch he)) ?_ (fun c ev he => ?_) c
  · intro c ans hm _ ev he
    cases hm with
    | helloRefuse hpc => exact hkeep c (hnew c (by rw [hpc]; rfl)) (by rw [hpc]; rfl)
    | busy hlock hpc =>
      have hg := hnew c (by rw [hpc]; rfl)
      simpa using hg
    | sweep hpc hsw | swept hpc hsw =>
      obtain ⟨hooks, n, calls, rfl⟩ := sweepStep_eq hsw
      simp at he
    | @stopIdle _ r | @stopHook _ r => cases r <;> simp [Sys.afterStopPc] at he
    | refill hpc => rcases hpc with hpc | hpc <;> simp [hpc] at he
    | _ => simp_all
  · exact hkeep c (hI c ev he) (by rw [he]; rfl)

/-- What a connection that is refused in the end has been granted: nothing. -/
theorem ungranted_of_turnedAway (hr : (supervisor env).Reachable s) {s₁ : Sys} {c : ConnId}
    (hpath : (supervisor env).PathBy (fun _ _ => True) s s₁) (h : TurnedAway s₁ c) :
    (s.conns c).granted = false := by
  have hend : (s₁.conns c).granted = false := by
    rcases h with ⟨ev, hpc⟩ | ⟨-, hg⟩
    · exact ungranted_of_refuse (hr.path hpath) hpc
    · exact hg
  by_contra hne
  have hgr := eq_true_of_ne_false hne
  -- a grant stays on record
  have hend' : (s₁.conns c).granted = true := by
    refine hpath.invariant (I := fun s => (s.conns c).granted = true) hr hgr ?_
    intro t a t' ht hg _ hst
    refine (step_move hst).2.granted_mono ?_ hg
    intro he
    rw [(Accepted.of_reachable ht).ungranted c (Nat.le_of_eq he.symm)] at hg
    cases hg
  exact absurd (hend.symm.trans hend') Bool.false_ne_true

/-- A connection that changes the owner or the core is granted the lease. -/
theorem ConnMove.owner_core_eq (hr : (supervisor env).Reachable s) {c : ConnId} {ans : Answer}
    (hr' : (supervisor env).Reachable s') (h : ConnMove env s c ans s')
    (hg : (s'.conns c).granted = false) : s'.owner = s.owner ∧ s'.core = s.core := by
  have hng : (s.conns c).granted = false := by
    by_contra hne
    have hg' := h.granted_mono (eq_true_of_ne_false hne)
    exact absurd (hg.symm.trans hg') Bool.false_ne_true
  -- under the lease, or past the release, it would have been granted
  have hholds : ¬ (s.conns c).pc.stage.holds := fun hst =>
    absurd (hng.symm.trans ((owned_of_reachable hr).granted c hst)) Bool.false_ne_true
  have htorn : (s.conns c).pc.stage ≠ .torn := fun hst =>
    absurd (hng.symm.trans ((accounted_of_reachable hr).torn c hst)) Bool.false_ne_true
  constructor
  · rcases h.owner_cases with he | ⟨t, hpc, -, howner, -⟩ | ⟨hpc, -⟩
    · exact he
    · -- the new owner is on record as granted
      have hO := owned_of_reachable hr'
      have hst := (hO.owner _ (Sys.leaseView_owner howner)).1
      exact absurd (hg.symm.trans (hO.granted c hst)) Bool.false_ne_true
    · exact absurd (by rw [hpc]; trivial) hholds
  · rcases h.core_cases with ⟨he, -⟩ | ⟨hpc, -⟩ | ⟨r, run, hpc, -⟩
    · exact he
    · exact absurd (by rw [hpc]; trivial) hholds
    · exfalso
      by_cases hd : r = .ownerDrop
      · exact htorn (by rw [hpc, hd]; rfl)
      · refine hholds ?_
        rw [hpc, show (ConnPc.stopLock r).stage = .driving from if_neg hd]
        trivial

/-! ## Every reachable state -/

/-- **The lease invariant** holds in every reachable state, with any number of
connections and under every order of their steps. -/
theorem lease_invariant (h : (listening env).Reachable (s, received)) :
    LeaseInvariant env s received := by
  have hr : (supervisor env).Reachable s := reachable_of_listening h
  have hscreen := screened_of_reachable h
  have hO := owned_of_reachable hr
  have hA := accounted_of_reachable hr
  constructor
  · intro o ho
    obtain ⟨hst, hk, -⟩ := hO.owner o.slot (Sys.leaseView_owner ho)
    have hg : (s.conns o.conn).granted = true := hO.granted _ hst
    refine ⟨hk, (hscreen o.conn).allowed (.inr (.inr hg)), (hscreen o.conn).hello (.inr hg), ?_⟩
    intro hpc
    have hst : (s.conns o.conn).pc.stage.holds := hst
    rw [hpc] at hst
    exact hst
  · intro c hg hne
    rcases hA.granted c hg with hst | hk | hst
    · refine .inl ?_
      by_contra hk
      -- not told to go: the slot would be its own
      have hslot := hO.holder c hst (eq_false_of_ne_true hk)
      obtain ⟨o, ho, heq⟩ := Option.map_eq_some_iff.mp hslot
      exact hne o ho (congrArg Tenure.Slot.member heq)
    · exact .inl hk
    · exact .inr (ConnPc.gaveUp_of_torn hst)
  · intro c d _ hck hcl _ hdk hdl
    exact hO.holder_unique (ConnPc.holds_of_inLoop hcl) hck (ConnPc.holds_of_inLoop hdl) hdk
  · intro c ans s' s₁ hs hpath haway
    have hr' : (supervisor env).Reachable s' := .step hr trivial hs
    have hg := ungranted_of_turnedAway hr' hpath haway
    cases (step_move hs).2 with
    | conn hm => exact hm.owner_core_eq hr hr' hg
    | other hm => cases hm with
      | procs ha => rcases ha with ⟨p, he⟩ | ⟨pid, he⟩ <;> cases he

/-- The owner of a running core is taken over, and a third peer is refused. -/
theorem lease_invariant_takeover :
    ∃ s received, (listening Client.env).Reachable (s, received) ∧
      s.owner = some ⟨2, 1⟩ ∧ (s.conns 0).granted = true ∧ TurnedAway s 2 ∧
      LeaseInvariant Client.env s received := by
  obtain ⟨s, hs, hp⟩ := exists_reachableBy Client.env (fun _ _ => True)
    ([Client.boot, Client.connect 0 Client.helloText, Client.own 0, Client.start 0 7,
      Client.connect 1 Client.takeoverText, Client.takeOver 1,
      Client.connect 2 Client.helloText, [.conn 2 .done]].flatten)
    (fun s => decide (s.owner = some (⟨2, 1⟩ : OwnerSlot) ∧ (s.conns 0).granted = true ∧
      (s.conns 2).pc = .refuse (.busy true))) (by decide +kernel)
  obtain ⟨howner, hg, hpc⟩ := of_decide_eq_true hp
  obtain ⟨received, hr⟩ := hs.recording (fun _ => []) noteReceived
  exact ⟨s, received, hr, howner, hg, .inl ⟨_, hpc⟩, lease_invariant hr⟩

end EasyTierMac.Supervisor
