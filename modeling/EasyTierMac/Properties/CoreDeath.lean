import EasyTierMac.Supervisor.DeathReport

/-!
# No silent core death

The snapshots and the idempotent `start` say "running" of a core that is being
stopped too, so an owner can be told that a core runs whose death is reported to
somebody else (`death_goes_elsewhere`). The owner that was told gets the line as
long as nobody else stops the core it knows of, it is told of no core that is
being stopped, and it keeps the lease until the monitor has looked it up.
-/

namespace EasyTierMac.Supervisor

open Transition (System)

variable {env : Env} {s s' : Sys}

/-! ## The claim about runs -/

/-- The monitor has looked the owner up and written to it, or had nothing to write. -/
def MonPc.reported : MonPc → Bool
  | .downHook | .sweepLock | .sweep _ | .done => true
  | _ => false

/-- In a `stop` that marked generation `g`, or about to write what it returned. -/
def ConnPc.ending (g : Gen) : ConnPc → Bool
  | .stopWait _ k | .stopHook _ k => k == g
  | .reply l => l.about == some (.stopped g)
  | _ => false

/-- Every thread that reports the death of generation `n` to connection `c` is through. -/
def Through (s : Sys) (c : ConnId) (n : Gen) : Prop :=
  (s.monitors n).pc.reported = true ∧ (s.conns c).pc.ending n = false

/-- The death of generation `n` stands behind the first `k` lines of the stream. -/
def EndsAfter (out : List Line) (n : Gen) (k : Nat) : Prop :=
  ∃ l ∈ out.drop k, l.ev.isEnd = true ∧ l.about = some (.stopped n)

instance : ∀ s c n, Decidable (Through s c n) := fun _ _ _ => inferInstanceAs (Decidable (_ ∧ _))

instance : ∀ out n k, Decidable (EndsAfter out n k) :=
  fun _ _ _ => inferInstanceAs (Decidable (∃ l ∈ _, _))

theorem Announced.endsAfter (hr : (supervisor env).Reachable s) {c : ConnId} {n : Gen} {k : Nat}
    (hA : Announced s c n k) (ht : Through s c n) : EndsAfter (s.conns c).out n k := by
  obtain ⟨hmon, hconn⟩ := ht
  cases hA with
  | @running run _ hcore _ hn =>
    have hopen : ¬ (s.monitors n).pc.phase.settled :=
      (tracked_of_reachable hr).running_open run n hcore hn
    cases hpc : (s.monitors n).pc <;>
      simp_all [MonPc.reported, MonPc.phase, Lifecycle.Phase.settled]
  | push hpc => simp [hpc, MonPc.reported] at hmon
  | pushWrite hpc => simp [hpc, MonPc.reported] at hmon
  | stopWait hpc => simp [hpc, ConnPc.ending] at hconn
  | stopHook hpc => simp [hpc, ConnPc.ending] at hconn
  | reply hpc _ hab => simp [hpc, ConnPc.ending, hab] at hconn
  | written hl hev hab => exact ⟨_, hl, hev, hab⟩

/-- When a generation dies that its owner was told of, the report is on its way. -/
theorem announced_of_die {s₁ s₂ : Sys} (h : (supervisor env).ReachableBy Announces s₁) {c : ConnId}
    {n : Gen} {id : Nat} {info : ExitInfo} {k : Nat} (howner : s₁.owner = some ⟨id, c⟩)
    (hT : Told s₁ c n k) (hdie : step env s₁ (.die n info) = some s₂) : Announced s₂ c n k := by
  cases (step_move hdie).2 with
  | other hm =>
    cases hm with
    | die hlife =>
      have hR := reaped_of_reachable (h.mono fun _ _ hp => hp.1)
      have hne : (s₁.lifeView.child n).life ≠ .reaped := by
        rw [show (s₁.lifeView.child n).life = .alive from hlife]
        exact Life.noConfusion
      obtain ⟨hn, run, hcore⟩ :=
        hR.latest (tracked_of_reachable h.reachable) (base_of_reachable h.reachable) hne
      cases hreq : run.stopRequested with
      | false => exact .running hcore hreq hn howner rfl (.inl ⟨info, by simp⟩)
      | true =>
        -- its stop is under way, and then it is the owner's own
        have hn' : s₁.nGen = n + 1 := hn
        have hwait := ownerStops_of_reachable h run ⟨id, c⟩ hcore hreq howner
        rw [hn'] at hwait
        exact .stopWait (hwait hT.knows)
    | procs ha => simp at ha

/-- **No silent core death**, in a run in which no death is silenced. An owner that
knows of a core that is being stopped stops it itself; and when a generation dies
whose owner was told that it runs, then as soon as the threads that report this are
through, `core_exited` or `core_stopped` has been written to that owner. -/
theorem no_silent_death {s₁ : Sys} (h : (supervisor env).ReachableBy Announces s₁) :
    OwnerStops s₁ ∧ ∀ c n id info s₂ s₃, s₁.owner = some ⟨id, c⟩ →
      (∃ l ∈ (s₁.conns c).out, l.about = some (.running n)) →
      step env s₁ (.die n info) = some s₂ → (supervisor env).PathBy Announces s₂ s₃ →
      Through s₃ c n → EndsAfter (s₃.conns c).out n (s₁.conns c).out.length := by
  refine ⟨ownerStops_of_reachable h, ?_⟩
  intro c n id info s₂ s₃ howner htold hdie hpath hthrough
  have hacc : c < s₁.nConns := by
    by_contra hle
    have hun := (Accepted.of_reachable h.reachable).ungranted c (Nat.le_of_not_lt hle)
    have hO := owned_of_reachable h.reachable
    have hg : (s₁.conns c).granted = true :=
      hO.granted c (hO.owner ⟨id, c⟩ (Sys.leaseView_owner howner)).1
    rw [hun] at hg
    cases hg
  have hT : Told s₁ c n (s₁.conns c).out.length := ⟨hacc, htold, Nat.le_refl _⟩
  have hr₂ : (supervisor env).ReachableBy Announces s₂ := .step (a := .die n info) h ⟨rfl, rfl⟩ hdie
  have hpair := hpath.invariant (I := fun s => Told s c n (s₁.conns c).out.length ∧
      Announced s c n (s₁.conns c).out.length) hr₂
    ⟨hT.step (step_move hdie).2, announced_of_die h howner hT hdie⟩ fun hr hI hp hs =>
      ⟨hI.1.step (step_move hs).2, hI.2.step hr.reachable hI.1 hp (step_move hs).2⟩
  exact hpair.2.endsAfter (hr₂.path hpath).reachable hthrough

namespace Client

/-- The owner stops its core, and is displaced while it waits for the end. -/
def takenDuringStop : List Action :=
  [boot, connect 0 helloText, own 0, start 0 7, stop 0, connect 1 takeoverText, takeOver 1].flatten

/-- The monitor of a core that was stopped reaps it, and the thread that stopped it
writes its reply. -/
def stopReply : List Action :=
  [.monitor 0 .done, .monitor 0 .done, .conn 0 .done, .conn 0 (.stat .absent), .conn 0 .done]

/-- The owner has started its core. -/
def owned : List Action := [boot, connect 0 helloText, own 0, start 0 7].flatten

/-- The monitor reaps a core and pushes `core_exited`. -/
def exitPush : List Action :=
  [.monitor 0 .done, .monitor 0 .done, .monitor 0 .done, .monitor 0 .done]

/-- The core of the first generation dies, the actions follow, and the state they
lead to passes the test. -/
def afterDeath (P : Sys → Action → Prop) [∀ s a, Decidable (P s a)] (l : List Action)
    (p : Sys → Bool) (s : Sys) : Bool :=
  ((step Client.env s (.die 0 ⟨some 0, none⟩)).bind fun s₂ =>
    System.runBy (step Client.env) P s₂ l).any p

end Client

/-- The new owner is told "running" by its hello reply, and the core dies; the reply of
the displaced connection's `stop` is the only report. -/
theorem death_goes_elsewhere : ∃ s₁ s₂ s₃, (supervisor Client.env).Reachable s₁ ∧
    s₁.owner = some ⟨2, 1⟩ ∧ (∃ l ∈ (s₁.conns 1).out, l.about = some (.running 0)) ∧
    step Client.env s₁ (.die 0 ⟨some 0, none⟩) = some s₂ ∧
    (supervisor Client.env).PathBy (fun _ _ => True) s₂ s₃ ∧ Through s₃ 1 0 ∧
    ¬ EndsAfter (s₃.conns 1).out 0 0 ∧ EndsAfter (s₃.conns 0).out 0 0 := by
  obtain ⟨s₁, hs, hp⟩ := exists_reachableBy Client.env (fun _ _ => True) Client.takenDuringStop
    (fun s : Sys => decide (s.owner = some ⟨2, 1⟩ ∧
      ∃ l ∈ (s.conns 1).out, l.about = some (.running 0)) &&
      Client.afterDeath (fun _ _ => True) Client.stopReply
        (fun t : Sys => decide (Through t 1 0 ∧ ¬ EndsAfter (t.conns 1).out 0 0 ∧
          EndsAfter (t.conns 0).out 0 0)) s) (by decide +kernel)
  obtain ⟨h₁, h₂⟩ := Bool.and_eq_true_iff.mp hp
  obtain ⟨howner, htold⟩ := of_decide_eq_true h₁
  obtain ⟨s₂, s₃, hdie, hpath, hq⟩ := System.exists_pathBy_of_runBy h₂
  obtain ⟨hthrough, hnone, hother⟩ := of_decide_eq_true hq
  exact ⟨s₁, s₂, s₃, hs, howner, htold, hdie, hpath, hthrough, hnone, hother⟩

theorem no_silent_death_push : ∃ s₁ s₂ s₃, (supervisor Client.env).ReachableBy Announces s₁ ∧
    step Client.env s₁ (.die 0 ⟨some 0, none⟩) = some s₂ ∧
    (supervisor Client.env).PathBy Announces s₂ s₃ ∧
    EndsAfter (s₃.conns 0).out 0 (s₁.conns 0).out.length := by
  obtain ⟨s₁, hs, hp⟩ := exists_reachableBy Client.env Announces Client.owned
    (fun s : Sys => decide (s.owner = some ⟨1, 0⟩ ∧
      ∃ l ∈ (s.conns 0).out, l.about = some (.running 0)) &&
      Client.afterDeath Announces Client.exitPush (fun t : Sys => decide (Through t 0 0)) s)
    (by decide +kernel)
  obtain ⟨h₁, h₂⟩ := Bool.and_eq_true_iff.mp hp
  obtain ⟨howner, htold⟩ := of_decide_eq_true h₁
  obtain ⟨s₂, s₃, hdie, hpath, hq⟩ := System.exists_pathBy_of_runBy h₂
  exact ⟨s₁, s₂, s₃, hs, hdie, hpath,
    (no_silent_death hs).2 0 0 1 _ s₂ s₃ howner htold hdie hpath (of_decide_eq_true hq)⟩

end EasyTierMac.Supervisor
