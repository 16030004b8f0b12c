import EasyTierMac.Supervisor.LeaseView
import EasyTierMac.Supervisor.Runs

/-!
# A teardown under another's lease

The thread of an ended connection reads `kicked` once and then goes through
several critical sections: it gives the lease up, calls `stop(OwnerDrop)`,
sweeps, joins its hook and exits. A connection that gets the lease between any
two of them loses its core, or the whole supervisor (`teardown_hits_owner`). As
long as no lease is granted in that span, or after the no-owner timer has
decided to exit, no teardown action hits another owner.
-/

namespace EasyTierMac.Supervisor

variable {env : Env} {s s' : Sys}

/-- Past the `kicked` check, with the flag found clear. -/
def ConnPc.tearing : ConnPc → Bool
  | .giveUp | .sweep .. | .join _ | .exit => true
  | .stopLock r | .stopWait r _ | .stopHook r _ => r == .ownerDrop
  | _ => false

theorem ConnPc.tearing_iff {pc : ConnPc} : pc.tearing = true ↔ pc.stage.tearing := by
  cases pc with
  | stopLock r | stopWait r g | stopHook r g =>
    cases r <;> simp [tearing, stage, Tenure.Stage.tearing]
  | _ => simp [tearing, stage, Tenure.Stage.tearing]

/-- The step is a teardown action while the owner slot belongs to another
connection: a call of `stop(OwnerDrop)`, a SIGKILL of the sweep that hits a core of
this supervisor, or `exit(0)`. -/
def Disturbs (s : Sys) : Action → Prop
  | .conn c ans => (∃ o, s.owner = some o ∧ o.conn ≠ c) ∧
      ((s.conns c).pc = .stopLock .ownerDrop ∨ (s.conns c).pc = .exit ∨
        ∃ pid todo killed hook g, (s.conns c).pc = .sweep (.kill (pid :: todo) killed) hook ∧
          ans = .killed true ∧ (s.children g).pid = pid ∧ (s.children g).life ≠ .reaped)
  | .timer => s.timer = .exiting ∧ s.owner ≠ none
  | _ => False

/-- The step grants the lease while a connection is past its `kicked` check or the
timer is about to exit. -/
def grantsInTeardown (s : Sys) : Action → Bool
  | .conn c _ =>
    match (s.conns c).pc with
    | .lease takeover => leaseDecision s.hasOwner takeover != .busy &&
        (s.timer == .exiting || (List.range s.nConns).any fun d => (s.conns d).pc.tearing)
    | _ => false
  | _ => false

/-- The step grants no lease during a teardown. -/
def GrantsQuietly (s : Sys) (a : Action) : Prop := grantsInTeardown s a = false

instance : ∀ s a, Decidable (GrantsQuietly s a) := fun _ _ => inferInstanceAs (Decidable (_ = _))

theorem GrantsQuietly.of_lease (hA : Accepted s) {c : ConnId} {ans : Answer} {t : Bool}
    (h : GrantsQuietly s (.conn c ans)) (hpc : (s.conns c).pc = .lease t)
    (hgrant : leaseDecision s.hasOwner t ≠ .busy) :
    s.leaseView.expired = false ∧ ∀ d, ¬ (s.leaseView.member d).stage.tearing := by
  unfold GrantsQuietly grantsInTeardown at h
  simp only [hpc, Bool.and_eq_false_iff, bne_eq_false_iff_eq, hgrant, false_or,
    Bool.or_eq_false_iff, List.any_eq_false, List.mem_range] at h
  refine ⟨h.1, fun d => ?_⟩
  show ¬ (s.conns d).pc.stage.tearing
  rw [← ConnPc.tearing_iff]
  exact hA.forall_pc (Q := fun pc => ¬ pc.tearing = true) (by simp [ConnPc.tearing]) h.2 d

theorem GrantsQuietly.label (hA : Accepted s) {a : Action} (h : GrantsQuietly s a)
    {b : Tenure.Act ConnId} (hl : LeaseLabel env s a b) : Tenure.GrantsQuietly s.leaseView b := by
  rintro ⟨c, rfl | ⟨d, rfl⟩⟩
  · obtain ⟨ans, t, rfl, hpc, howner⟩ := hl
    refine h.of_lease hA hpc ?_
    rw [Sys.hasOwner, howner]
    cases t <;> simp [leaseDecision]
  · obtain ⟨ans, o, rfl, hpc, howner, -⟩ := hl
    refine h.of_lease hA hpc ?_
    rw [Sys.hasOwner, howner]
    simp [leaseDecision]

theorem undisturbed_of_reachable (h : (supervisor env).ReachableBy GrantsQuietly s) :
    Tenure.Undisturbed s.leaseView :=
  .of_reachable ((lease env).reachableBy
    (fun hr hp hl => hp.label (.of_reachable hr.reachable) hl) h)

/-- **No teardown hits another owner**, while no lease is granted during a teardown;
and a displaced connection does not get as far as a teardown. -/
theorem teardown_undisturbed (h : (supervisor env).ReachableBy GrantsQuietly s) :
    (∀ a s', step env s a = some s' → ¬ Disturbs s a) ∧
      ∀ c, (s.conns c).kicked = true → (s.conns c).pc.tearing = false := by
  have hU := undisturbed_of_reachable h
  -- whoever is past its check finds the slot free or its own
  have hown : ∀ {c : ConnId} {o : OwnerSlot}, (s.conns c).pc.tearing = true →
      s.owner = some o → o.conn = c :=
    fun hc ho => hU.tearing _ _ (ConnPc.tearing_iff.mp hc) (Sys.leaseView_owner ho)
  refine ⟨fun a s' _ hd => ?_, fun c hk => ?_⟩
  · cases a with
    | conn c ans =>
      obtain ⟨⟨o, ho, hne⟩, hpc⟩ := hd
      refine hne (hown ?_ ho)
      rcases hpc with hpc | hpc | ⟨pid, todo, killed, hook, g, hpc, -⟩ <;> rw [hpc] <;> rfl
    | timer =>
      obtain ⟨htimer, howner⟩ := hd
      have hfree := hU.expired (show (s.timer == .exiting) = true by rw [htimer]; rfl)
      exact howner (Option.map_eq_none_iff.mp hfree)
    | _ => exact hd
  · by_contra hc
    rw [Bool.not_eq_false] at hc
    have hun : (s.conns c).kicked = false := hU.unkicked c (ConnPc.tearing_iff.mp hc)
    rw [hk] at hun
    cases hun

namespace Client

/-- The peer closes, and the thread of connection `c` ends its loop, finds that it
was not kicked, and gives the lease up. -/
def leave (c : ConnId) : List Action := [.hangup c, .conn c .done, .conn c .done, .conn c .done]

/-- The owner disconnects and gives the lease up; before it calls `stop(OwnerDrop)`
another connection takes the lease and starts a core. -/
def lateOwner : List Action :=
  [boot, connect 0 helloText, own 0, leave 0, connect 1 helloText, own 1, start 1 7].flatten

/-- The owner starts a core and disconnects; its teardown has just begun. -/
def disconnect : List Action := [boot, connect 0 helloText, own 0, start 0 7, leave 0].flatten

end Client

/-- The teardown of a connection that is gone stops the core of the new owner. -/
theorem teardown_hits_owner : ∃ s s', (supervisor Client.env).Reachable s ∧
    s.owner = some ⟨2, 1⟩ ∧ s.core = .running ⟨7, 5000, false⟩ ∧
    step Client.env s (.conn 0 .done) = some s' ∧ Disturbs s (.conn 0 .done) ∧
    s'.core = .running ⟨7, 5000, true⟩ := by
  obtain ⟨s, hs, hp⟩ := exists_reachableBy Client.env (fun _ _ => True) Client.lateOwner
    (fun s => decide (s.owner = some ⟨2, 1⟩ ∧ s.core = .running ⟨7, 5000, false⟩ ∧
      (s.conns 0).pc = .stopLock .ownerDrop ∧
      (step Client.env s (.conn 0 .done)).map Sys.core = some (.running ⟨7, 5000, true⟩)))
    (by decide +kernel)
  obtain ⟨howner, hcore, hpc, hstep⟩ := of_decide_eq_true hp
  obtain ⟨s', hs', hcore'⟩ := Option.map_eq_some_iff.mp hstep
  exact ⟨s, s', hs, howner, hcore, hs', ⟨⟨_, howner, by decide⟩, .inl hpc⟩, hcore'⟩

theorem teardown_undisturbed_disconnect : ∃ s, (supervisor Client.env).ReachableBy GrantsQuietly s ∧
    (s.conns 0).pc = .stopLock .ownerDrop ∧
    ∀ a s', step Client.env s a = some s' → ¬ Disturbs s a := by
  obtain ⟨s, hs, hp⟩ := exists_reachableBy Client.env GrantsQuietly Client.disconnect
    (fun s => (s.conns 0).pc == .stopLock .ownerDrop) (by decide +kernel)
  exact ⟨s, hs, beq_iff_eq.mp hp, (teardown_undisturbed hs).1⟩

end EasyTierMac.Supervisor
