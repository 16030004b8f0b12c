import EasyTierMac.Properties.OneCore

/-!
# Hooks at exit

The thread that exits joins one hook: the one its own `stop(OwnerDrop)` started.
The down hooks of a stop command, of a core that exited and of a sweep are
detached, and one of them may still run, or not even have spawned its script,
when the process exits (`hook_abandoned`). Exit leaves no down hook behind
exactly when the hooks it does not join happen to have ended.
-/

namespace EasyTierMac.Supervisor

open Function (update)

variable {env : Env} {s s' : Sys}

/-! ## Joined hooks -/

/-- Where a connection is that holds the handle of hook `h`: between its
`stop(OwnerDrop)` and the join, or past the join. -/
def ConnPc.holdsHook (h : HookId) (finished : Bool) : ConnPc → Prop
  | .sweep _ hook | .join hook => hook = some h
  | .exit => finished = true
  | _ => False

/-- Every hook that is to be joined is still to be joined, or has finished. -/
def Joined (s : Sys) : Prop := ∀ h c, (s.hooks h).joiner = some c →
  (s.conns c).pc.holdsHook h (s.hooks h).pc.isFinished

theorem ConnPc.holdsHook.mono {h : HookId} {b b' : Bool} {pc : ConnPc} (hp : pc.holdsHook h b)
    (hb : b = true → b' = true) : pc.holdsHook h b' := by
  cases pc with
  | exit => exact hb hp
  | _ => exact hp

/-- No hook is there to be joined that was not before, and none that had finished
runs. -/
def HooksKept (s s' : Sys) : Prop := ∀ h c, (s'.hooks h).joiner = some c →
  (s.hooks h).joiner = some c ∧
    ((s.hooks h).pc.isFinished = true → (s'.hooks h).pc.isFinished = true)

theorem HooksKept.rfl : HooksKept s s := fun _ _ hj => ⟨hj, id⟩

/-- A detached hook starts. -/
theorem hooksKept_runHook (s : Sys) (env : Env) (call : HookCall) (st : Stat) :
    HooksKept s (s.runHook env call none st) := by
  intro h c hj
  unfold Sys.runHook at hj ⊢
  dsimp only at hj ⊢
  split at hj
  · next hruns =>
    rw [if_pos hruns]
    by_cases hh : h = s.nHooks
    · subst hh
      simp only [Function.update_self] at hj
      cases hj
    · simp only [Function.update_of_ne hh] at hj ⊢
      exact ⟨hj, id⟩
  · next hruns =>
    rw [if_neg hruns]
    exact ⟨hj, id⟩

theorem sweepStep_hooksKept {s₁ : Sys} {sw : Sweep} {ans : Answer} {next : Option Sweep}
    (h : sweepStep env s sw ans = some (s₁, next)) (hs : s'.hooks = s₁.hooks) :
    HooksKept s s' := by
  unfold HooksKept
  rw [hs]
  show HooksKept s s₁
  cases sweepStep_swept h with
  | quiet => exact .rfl
  | hook st => exact hooksKept_runHook s env _ st

/-- The teardown's own hook starts: the only one that is to be joined. -/
theorem runHook_joiner {call : HookCall} {c d : ConnId} {st : Stat} {h : HookId}
    (hj : ((s.runHook env call (some c) st).hooks h).joiner = some d) :
    (s.hooks h).joiner = some d ∧ ((s.runHook env call (some c) st).hooks h).pc = (s.hooks h).pc ∨
      d = c ∧ s.hookHandle env st = some h := by
  unfold Sys.runHook at hj ⊢
  dsimp only at hj ⊢
  split at hj
  · next hruns =>
    rw [if_pos hruns]
    by_cases hh : h = s.nHooks
    · subst hh
      simp only [Function.update_self, Option.some.injEq] at hj
      exact .inr ⟨hj.symm, by simp [Sys.hookHandle, hruns]⟩
    · simp only [Function.update_of_ne hh] at hj ⊢
      exact .inl ⟨hj, trivial⟩
  · next hruns =>
    rw [if_neg hruns]
    exact .inl ⟨hj, rfl⟩

/-- A connection that holds a handle carries it to the join, and waits there. -/
theorem ConnMove.holdsHook {c : ConnId} {ans : Answer} (h : ConnMove env s c ans s') {k : HookId}
    (hold : (s.conns c).pc.holdsHook k (s.hooks k).pc.isFinished) :
    (s'.conns c).pc.holdsHook k (s.hooks k).pc.isFinished := by
  cases h with
  | sweep hpc hsw | swept hpc hsw =>
    obtain ⟨hooks, n, calls, rfl⟩ := sweepStep_eq hsw
    rw [hpc] at hold
    simpa [ConnPc.holdsHook] using hold
  | join hpc hdone =>
    rw [hpc] at hold
    simpa [ConnPc.holdsHook] using hdone k hold
  | exit hpc => exact hold
  | refill hpc => rcases hpc with hpc | hpc <;> rw [hpc] at hold <;> exact hold.elim
  | gate hpc | reject hpc | helloFail hpc | helloDrop hpc | helloRefuse hpc | helloAccept hpc
  | refused hpc | busy _ hpc | accept _ hpc | takeover _ hpc | kickWrite hpc | kickSkip hpc
  | kickShutdown hpc | helloSnap _ hpc | helloWrite hpc | loopFail hpc | loopEnd hpc
  | loopBlank hpc | loopError hpc | loopStart hpc | loopStatus hpc | loopStop hpc
  | startRunning _ hpc | startFailed _ hpc | spawn _ hpc | spawnMonitor hpc | upHook hpc
  | statusSnap _ hpc | reply hpc | stopIdle _ hpc | stopMark _ hpc | stopSeen _ hpc
  | stopAgain _ hpc | stopHook hpc | endedKicked hpc | endedOwner hpc | giveUp _ hpc
  | giveUpOther _ hpc =>
    rw [hpc] at hold
    exact hold.elim

/-- A connection starts a hook to be joined in its teardown only, and goes on with
its handle. -/
theorem ConnMove.hooks_cases {c : ConnId} {ans : Answer} (h : ConnMove env s c ans s') :
    HooksKept s s' ∨ ∃ hook, (s'.conns c).pc = .sweep .ps hook ∧
      ∀ k d, (s'.hooks k).joiner = some d →
        (s.hooks k).joiner = some d ∧ (s'.hooks k).pc = (s.hooks k).pc ∨ d = c ∧ hook = some k := by
  cases h with
  | sweep hpc hsw | swept hpc hsw => exact .inl (sweepStep_hooksKept hsw rfl)
  | upHook hpc => exact .inl (hooksKept_runHook s env _ _)
  | @stopHook st r g hpc =>
    by_cases hr : r = .ownerDrop
    · subst hr
      refine .inr ⟨s.hookHandle env st, by simp [Sys.afterStopPc], fun k d hj => ?_⟩
      exact runHook_joiner hj
    · rw [if_neg hr]
      exact .inl (hooksKept_runHook s env _ _)
  | _ => exact .inl .rfl

theorem MonMove.hooksKept {g : Gen} {ans : Answer} (h : MonMove env s g ans s') :
    HooksKept s s' := by
  cases h with
  | sweep hpc hsw | swept hpc hsw => exact sweepStep_hooksKept hsw rfl
  | downHook hpc => exact hooksKept_runHook s env _ _
  | _ => exact .rfl

theorem OtherMove.hooksKept {a : Action} (h : OtherMove env s a s') : HooksKept s s' := by
  cases h with
  | main _ hsw | serve _ hsw => exact sweepStep_hooksKept hsw rfl
  | @hookLaunch k ans pc hpc =>
    intro h c hj
    by_cases hk : h = k
    · subst hk
      simp only [Sys.setHook, Function.update_self] at hj
      exact ⟨hj, fun hf => by rw [hpc] at hf; cases hf⟩
    · simp only [Sys.setHook, Function.update_of_ne hk] at hj ⊢
      exact ⟨hj, id⟩
  | @hookEnd k ans d how hpc =>
    intro h c hj
    by_cases hk : h = k
    · subst hk
      simp only [Sys.setHook, Function.update_self] at hj ⊢
      exact ⟨hj, fun _ => rfl⟩
    · simp only [Sys.setHook, Function.update_of_ne hk] at hj ⊢
      exact ⟨hj, id⟩
  | _ => exact .rfl

theorem Joined.step (hJ : Joined s) (hA : Accepted s) {a : Action} (h : Move env s a s') :
    Joined s' := by
  intro k d hj
  cases h with
  | @conn c ans _ h =>
    have hkeep : ∀ {b : Bool}, (s.hooks k).joiner = some d →
        ((s.hooks k).pc.isFinished = true → b = true) → (s'.conns d).pc.holdsHook k b := by
      intro b hj' hb
      have hold := hJ k d hj'
      by_cases hdc : d = c
      · subst hdc
        exact (h.holdsHook hold).mono hb
      · rw [(h.of_ne hdc).1]
        exact hold.mono hb
    rcases h.hooks_cases with hK | ⟨hook, hpc, hcases⟩
    · obtain ⟨hj', hf⟩ := hK k d hj
      exact hkeep hj' hf
    · rcases hcases k d hj with ⟨hj', he⟩ | ⟨rfl, hook'⟩
      · exact hkeep hj' (by rw [he]; exact id)
      · rw [hpc]
        exact hook'
  | @monitor g ans _ h =>
    obtain ⟨hj', hf⟩ := h.hooksKept k d hj
    obtain ⟨out, he⟩ := h.conns_eq d
    rw [he]
    exact (hJ k d hj').mono hf
  | other h =>
    obtain ⟨hj', hf⟩ := h.hooksKept k d hj
    have hold := (hJ k d hj').mono hf
    rcases h.conns_eq with ⟨uid, hc, -⟩ | ⟨-, hc⟩
    · have hdn : d ≠ s.nConns := by
        rintro rfl
        rw [hA.closed _ (Nat.le_refl _)] at hold
        exact hold
      rw [hc, Function.update_of_ne hdn]
      exact hold
    · obtain ⟨sock, closed, he⟩ := hc d
      rw [he]
      exact hold

theorem Joined.of_reachable (h : (supervisor env).Reachable s) : Joined s :=
  h.invariant (fun _ _ he => by cases he) fun hr hJ _ hs =>
    hJ.step (.of_reachable hr) (step_move hs).2

/-! ## At exit -/

/-- The hook thread ended without a run of its script that was waited for. -/
def HookPc.failed : HookPc → Bool
  | .finished .notLaunched | .finished .waitFailed | .finished .panicked => true
  | _ => false

theorem HookPc.complete_iff {pc : HookPc} :
    pc.complete = true ↔ pc.isFinished = true ∧ pc.failed = false := by
  cases pc with
  | finished how => cases how <;> simp [complete, isFinished, failed]
  | _ => simp [complete, isFinished]

/-- Every down hook has run to its end: launched, ended or killed at its timeout,
and reaped. -/
def NoneAbandoned (s : Sys) : Prop :=
  ∀ h < s.nHooks, (s.hooks h).event = .down → (s.hooks h).pc.complete = true

/-- The down hooks that connection `c` does not join have run to their end, and the
one it joins does not fail. -/
def OthersComplete (s : Sys) (c : ConnId) : Prop :=
  ∀ h < s.nHooks, (s.hooks h).event = .down →
    if (s.hooks h).joiner = some c then (s.hooks h).pc.failed = false
    else (s.hooks h).pc.complete = true

instance (s : Sys) (c : ConnId) : Decidable (OthersComplete s c) :=
  inferInstanceAs (Decidable (∀ h < s.nHooks, _ → _))

/-- **What exit leaves behind.** When the teardown of connection `c` calls `exit(0)`,
no down hook is abandoned exactly when the hooks it does not join have happened
to run to their end and its own did not fail. -/
theorem none_abandoned_iff (h : (supervisor env).Reachable s) {c : ConnId} {ans : Answer}
    (hpc : (s.conns c).pc = .exit) (hs : step env s (.conn c ans) = some s') :
    s'.exited = some (.conn c) ∧ (NoneAbandoned s' ↔ OthersComplete s c) := by
  have hJ := Joined.of_reachable h
  have he : s' = s.exit (.conn c) := by
    cases (step_move hs).2 with
    | conn hm => cases hm <;> simp_all
    | other hm =>
      cases hm with
      | procs ha => rcases ha with ⟨_, ha⟩ | ⟨_, ha⟩ <;> cases ha
  subst he
  refine ⟨rfl, ?_⟩
  show (∀ h < s.nHooks, _ → (s.hooks h).pc.complete = true) ↔ _
  refine forall_congr' fun k => forall_congr' fun _ => forall_congr' fun _ => ?_
  by_cases hj : (s.hooks k).joiner = some c
  · -- its own hook: joined, hence finished
    have hfin : (s.hooks k).pc.isFinished = true := by
      have hold := hJ k c hj
      rw [hpc] at hold
      exact hold
    rw [if_pos hj, HookPc.complete_iff, hfin]
    simp
  · rw [if_neg hj]

namespace Client

/-- `down.sh`: a regular file of user 501 that only its owner may write. -/
def script : Stat := .found ⟨true, 501, 20, 0o755⟩

/-- The thread of connection `c`, past its loop: it finds that it was not kicked, gives
the lease up, and calls `stop(OwnerDrop)`. -/
def tearDown (c : ConnId) : List Action :=
  [.hangup c, .conn c .done, .conn c .done, .conn c .done, .conn c .done]

/-- The owner stops the core and leaves; the down hook of the stop has not yet
spawned its script when the teardown is about to exit. -/
def stopAndLeave : List Action :=
  [boot, connect 0 helloText, own 0, start 0 7, stop 0, perish 0,
    [.conn 0 .done, .conn 0 (.stat script), .conn 0 .done], tearDown 0,
    [.conn 0 .failed, .conn 0 .done]].flatten

/-- The owner leaves while the core runs; the teardown joins its down hook. -/
def leaveAndJoin : List Action :=
  [boot, connect 0 helloText, own 0, start 0 7, tearDown 0, perish 0,
    [.conn 0 .done, .conn 0 (.stat script), .conn 0 .failed, .hook 0 .done, .hook 0 .done,
      .conn 0 .done]].flatten

end Client

/-- The supervisor exits before the down hook of a stop has spawned its script. -/
theorem hook_abandoned : ∃ s s', (supervisor Client.env).ReachableBy NoWaitError s ∧
    (s.conns 0).pc = .exit ∧ step Client.env s (.conn 0 .done) = some s' ∧
    s'.exited = some (.conn 0) ∧ s'.nHooks = 1 ∧ s'.hooks 0 = ⟨.down, .created, none⟩ := by
  obtain ⟨s, hs, hp⟩ := exists_reachableBy Client.env NoWaitError Client.stopAndLeave
    (fun s => decide ((s.conns 0).pc = .exit ∧
      (step Client.env s (.conn 0 .done)).map (fun s' => (s'.exited, s'.nHooks, s'.hooks 0)) =
        some (some (.conn 0), 1, ⟨.down, .created, none⟩))) (by decide +kernel)
  obtain ⟨hpc, hstep⟩ := of_decide_eq_true hp
  obtain ⟨s', hs', he⟩ := Option.map_eq_some_iff.mp hstep
  simp only [Prod.mk.injEq] at he
  exact ⟨s, s', hs, hpc, hs', he⟩

theorem none_abandoned_join : ∃ s s', (supervisor Client.env).Reachable s ∧
    (s.conns 0).pc = .exit ∧ step Client.env s (.conn 0 .done) = some s' ∧
    s'.hooks 0 = ⟨.down, .finished .exited, some 0⟩ ∧ NoneAbandoned s' := by
  obtain ⟨s, hs, hp⟩ := exists_reachableBy Client.env (fun _ _ => True) Client.leaveAndJoin
    (fun s => decide ((s.conns 0).pc = .exit ∧ OthersComplete s 0 ∧
      (step Client.env s (.conn 0 .done)).map (fun s' => s'.hooks 0) =
        some ⟨.down, .finished .exited, some 0⟩)) (by decide +kernel)
  obtain ⟨hpc, hothers, hstep⟩ := of_decide_eq_true hp
  obtain ⟨s', hs', he⟩ := Option.map_eq_some_iff.mp hstep
  exact ⟨s, s', hs, hpc, hs', he, (none_abandoned_iff hs hpc hs').2.mpr hothers⟩

end EasyTierMac.Supervisor
