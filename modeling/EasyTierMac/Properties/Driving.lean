import EasyTierMac.Supervisor.LeaseView
import EasyTierMac.Supervisor.Runs

/-!
# Who drives the core

The command loop never looks at the lease: a connection that was displaced goes
on to execute what it had already received (`displaced_starts`). Only the owner
starts and stops the core as long as no connection is displaced between reading
`start` or `stop` and taking the state lock for it, and no displaced connection
finds another of these commands in its buffers.
-/

namespace EasyTierMac.Supervisor

variable {env : Env} {s s' : Sys}

/-- About to take the state lock in `start`, or in `stop` for a command. -/
def ConnPc.driving : ConnPc → Bool
  | .startLock => true
  | .stopLock r => r == .requested
  | _ => false

/-- Whoever is about to start or stop the core for a command is the owner. -/
def OwnerDrives (s : Sys) : Prop :=
  ∀ c, (s.conns c).pc.driving = true → s.owner = some ⟨(s.conns c).id, c⟩

/-- The step displaces a connection that has read `start` or `stop` and not yet
taken the lock for it, or lets a displaced connection read one of them. -/
def drivesDisplaced (env : Env) (s : Sys) : Action → Bool
  | .conn c _ =>
    match (s.conns c).pc, s.owner with
    | .lease true, some old => (s.conns old.conn).pc.driving
    | .loop, _ => (s.conns c).kicked &&
        (s.nextCmd env c == some .start || s.nextCmd env c == some .stop)
    | _, _ => false
  | _ => false

/-- No displaced connection is on its way to drive the core. -/
def DrivesOwn (env : Env) (s : Sys) (a : Action) : Prop := drivesDisplaced env s a = false

instance (env : Env) : ∀ s a, Decidable (DrivesOwn env s a) :=
  fun _ _ => inferInstanceAs (Decidable (_ = _))

theorem ConnPc.stage_driving {pc : ConnPc} (h : pc.driving = true) : pc.stage = .driving := by
  cases pc with
  | stopLock r => cases r <;> simp_all [driving, stage]
  | _ => simp_all [driving, stage]

theorem ConnPc.driving_of_stage {pc : ConnPc}
    (hr : ∀ r, pc = .stopLock r → r = .requested ∨ r = .ownerDrop) (h : pc.stage = .driving) :
    pc.driving = true := by
  cases pc with
  | startLock => rfl
  | stopLock r =>
    rcases hr r rfl with rfl | rfl
    · rfl
    · simp [stage] at h
  | stopWait r g | stopHook r g => cases r <;> simp [stage] at h
  | _ => simp [stage] at h

theorem DrivesOwn.label (hr : (supervisor env).Reachable s) {a : Action} (h : DrivesOwn env s a)
    {b : Tenure.Act ConnId} (hl : LeaseLabel env s a b) : Tenure.DrivesOwn s.leaseView b := by
  constructor
  · rintro c d rfl hdriving
    obtain ⟨ans, o, rfl, hpc, howner, rfl⟩ := hl
    have hpc' := ConnPc.driving_of_stage (stopReasons_of_reachable hr o.conn) hdriving
    simp [DrivesOwn, drivesDisplaced, hpc, howner, hpc'] at h
  · rintro c rfl
    obtain ⟨ans, cmd, rfl, hpc, hcmd, hc⟩ := hl
    show (s.conns c).kicked = false
    rcases hc with rfl | rfl <;> simpa [DrivesOwn, drivesDisplaced, hpc, hcmd] using h

/-- **Only the owner drives the core**, while no displaced connection is on its way
to do so: whoever is about to take the lock for `start` or a commanded `stop` is
the owner, and was not displaced. -/
theorem owner_drives (h : (supervisor env).ReachableBy (DrivesOwn env) s) :
    OwnerDrives s ∧ ∀ c, (s.conns c).kicked = true → (s.conns c).pc.driving = false := by
  have hO := owned_of_reachable h.reachable
  have hD : Tenure.Driven s.leaseView :=
    .of_reachable ((lease env).reachableBy (fun hr hp hl => hp.label hr.reachable hl) h)
  refine ⟨fun c hc => ?_, fun c hk => ?_⟩
  · obtain ⟨⟨id, conn⟩, ho, hslot⟩ :=
      Option.map_eq_some_iff.mp (hD.owner hO (ConnPc.stage_driving hc))
    injection hslot with hid hconn
    rw [ho, show id = (s.conns c).id from hid, show conn = c from hconn]
  · by_contra hc
    rw [Bool.not_eq_false] at hc
    have hun : (s.conns c).kicked = false := hD c (ConnPc.stage_driving hc)
    rw [hk] at hun
    cases hun

namespace Client

/-- The owner sends `start` twice in one packet and is displaced after the first;
the core of the first is dead by the time its loop reads the second. -/
def pipelined : List Action :=
  [boot, connect 0 helloText, own 0,
    [.arrive 0 (line startText ++ line startText),
      .conn 0 (.refill (line startText ++ line startText).length), .conn 0 .done,
      .conn 0 (.spawn (.child 7 5000)), .conn 0 .done, .conn 0 (.stat .absent), .conn 0 .done],
    connect 1 takeoverText, takeOver 1, perish 0, [.conn 0 .done]].flatten

/-- The owner is about to take the lock for its `start`. -/
def ownStart : List Action := [boot, connect 0 helloText, own 0, send 0 (line startText)].flatten

end Client

/-- A connection that was displaced starts a core. -/
theorem displaced_starts : ∃ s s', (supervisor Client.env).Reachable s ∧
    (s.conns 0).kicked = true ∧ (s.conns 0).pc = .startLock ∧ s.owner = some ⟨2, 1⟩ ∧
    s.core = .stopped ∧ step Client.env s (.conn 0 (.spawn (.child 8 5001))) = some s' ∧
    s'.core = .running ⟨8, 5001, false⟩ := by
  obtain ⟨s, hs, hp⟩ := exists_reachableBy Client.env (fun _ _ => True) Client.pipelined
    (fun s => decide ((s.conns 0).kicked = true ∧ (s.conns 0).pc = .startLock ∧
      s.owner = some ⟨2, 1⟩ ∧ s.core = .stopped ∧
      (step Client.env s (.conn 0 (.spawn (.child 8 5001)))).map Sys.core =
        some (.running ⟨8, 5001, false⟩))) (by decide +kernel)
  obtain ⟨hk, hpc, howner, hcore, hstep⟩ := of_decide_eq_true hp
  obtain ⟨s', hs', hcore'⟩ := Option.map_eq_some_iff.mp hstep
  exact ⟨s, s', hs, hk, hpc, howner, hcore, hs', hcore'⟩

theorem owner_drives_start : ∃ s, (supervisor Client.env).ReachableBy (DrivesOwn Client.env) s ∧
    (s.conns 0).pc = .startLock ∧ OwnerDrives s := by
  obtain ⟨s, hs, hp⟩ := exists_reachableBy Client.env (DrivesOwn Client.env) Client.ownStart
    (fun s => (s.conns 0).pc == .startLock) (by decide +kernel)
  exact ⟨s, hs, beq_iff_eq.mp hp, (owner_drives hs).1⟩

end EasyTierMac.Supervisor
