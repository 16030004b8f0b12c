import EasyTierMac.Atomic
import EasyTierMac.Supervisor.Streams

/-!
# The core as a shared object

To its clients the supervisor is one object: a core that runs at a pid and a port, or not.
`coreObject` is that object, with a sequential account of each command; `await` is what is left
of a `stop` that has found a core, and the object changes on its own when a core exits.

`Sys.phase` reads off the thread of a connection what its client is doing, and `noteCommands`
writes down the entries of a run. `ConnMove.commanded` says what a step of a connection is to the
object: nothing, the beginning of a call, one atomic step of it, or its end.
-/

namespace EasyTierMac.Supervisor

open Function (update)
open Object (Entry Phase)

/-! ## The object -/

/-- A command of a client, or what is left of it. -/
inductive CoreCall
  /-- The core state in the hello reply. -/
  | hello
  | start
  | status
  | stop
  /-- A `stop` that has found a core. -/
  | await
  /-- A line that is not a command; its reply is known. -/
  | bad (code msg : String)
  deriving DecidableEq, Repr

/-- The pid and the port of the core, if there is one. -/
abbrev CoreView := Option (Int32 × UInt16)

def CoreView.state : CoreView → CoreState
  | none => .stopped
  | some _ => .running

/-- What a command makes of the core, and its reply. -/
inductive Performs (version : String) : CoreView → CoreCall → CoreCall ⊕ Event → CoreView → Prop
  | hello (v : CoreView) : Performs version v .hello
      (.inr (.hello PROTO_VERSION version v.state (v.map Prod.snd))) v
  | running {pid : Int32} {port : UInt16} : Performs version (some (pid, port)) .start
      (.inr (.coreStarted pid port)) (some (pid, port))
  | spawned {pid : Int32} {port : UInt16} : Performs version none .start
      (.inr (.coreStarted pid port)) (some (pid, port))
  | spawnFailed {msg : String} : Performs version none .start (.inr (.error "spawn_failed" msg)) none
  | status (v : CoreView) : Performs version v .status
      (.inr (.status v.state (v.map Prod.fst) (v.map Prod.snd))) v
  | alreadyStopped : Performs version none .stop (.inr (.coreStopped "already_stopped")) none
  | found {core : Int32 × UInt16} : Performs version (some core) .stop (.inl .await) (some core)
  | stopped : Performs version none .await (.inr (.coreStopped "requested")) none
  | bad {v : CoreView} {code msg : String} :
      Performs version v (.bad code msg) (.inr (.error code msg)) v

/-- The core that the clients of a supervisor share. -/
def coreObject (env : Env) : Object CoreView CoreCall Event where
  init := none
  perform := Performs env.version
  event v v' := v.isSome = true ∧ v' = none

/-! ## The object in a supervisor -/

def CoreProc.view : CoreProc → CoreView
  | .stopped => none
  | .running r => some (r.pid, r.rpcPort)

/-- What the client of a connection is doing. A `stop` of the teardown has no client. -/
def ConnPc.phase (children : Gen → Child) : ConnPc → Phase CoreCall Event
  | .helloSnap => .called .hello
  | .helloWrite l | .reply l => .answered l.ev
  | .startLock => .called .start
  | .spawnMonitor g | .upHook g => .answered (.coreStarted (children g).pid (children g).rpcPort)
  | .statusSnap => .called .status
  | .stopLock r => if r = .ownerDrop then .idle else .called .stop
  | .stopWait r _ => if r = .ownerDrop then .idle else .called .await
  | .stopHook r _ => if r = .ownerDrop then .idle else .answered (.coreStopped "requested")
  | _ => .idle

def Sys.phase (s : Sys) (c : ConnId) : Phase CoreCall Event := (s.conns c).pc.phase s.children

/-! ## The log of a run -/

abbrev CoreEntry := Entry ConnId CoreCall Event

/-- What the client of `c` has done when it goes from one phase to another. -/
def entries (c : ConnId) : Phase CoreCall Event → Phase CoreCall Event → List CoreEntry
  | .idle, .called k => [.call c k]
  | .idle, .answered (.error code msg) =>
    [.call c (.bad code msg), .perform c (.bad code msg) (.inr (.error code msg))]
  | .called k, .called k' => if k = k' then [] else [.perform c k (.inl k')]
  | .called k, .answered r => [.perform c k (.inr r)]
  | .answered r, .idle => [.ret c r]
  | _, _ => []

/-- The log of a run, after a step. -/
def noteCommands (env : Env) (s : Sys) (a : Action) (l : List CoreEntry) : List CoreEntry :=
  match a, step env s a with
  | .conn c _, some s' => l ++ entries c (s.phase c) (s'.phase c)
  | .monitor _ _, some s' => if s'.core.view = s.core.view then l else l ++ [.event]
  | _, _ => l

/-- The supervisor with the log of its commands. -/
def logged (env : Env) : Transition.System (Sys × List CoreEntry) Action :=
  (supervisor env).recording [] (noteCommands env)

/-! ## Frames -/

variable {env : Env} {s s' : Sys} {c d : ConnId} {ans : Answer}

/-- A thread that has spawned a core knows its generation. -/
def Started (s : Sys) : Prop :=
  ∀ c g, (s.conns c).pc = .spawnMonitor g ∨ (s.conns c).pc = .upHook g → g < s.nGen

/-- The generations that there are keep their pids and ports. -/
def SameIds (s s' : Sys) : Prop :=
  s.nGen ≤ s'.nGen ∧ ∀ g < s.nGen, (s'.children g).pid = (s.children g).pid ∧
    (s'.children g).rpcPort = (s.children g).rpcPort

theorem sameIds_of_eq (hn : s'.nGen = s.nGen) (hc : s'.children = s.children) : SameIds s s' := by
  refine ⟨hn.ge, fun g _ => ?_⟩
  rw [hc]
  exact ⟨rfl, rfl⟩

theorem sameIds_setLife (g : Gen) (l : Life) : SameIds s (s.setLife g l) := by
  refine ⟨Nat.le_refl _, fun k _ => ?_⟩
  by_cases hk : k = g
  · subst hk
    simp
  · simp [hk]

theorem ConnMove.sameIds (h : ConnMove env s c ans s') : SameIds s s' := by
  cases h with
  | sweep hpc hsw | swept hpc hsw =>
    obtain ⟨hooks, n, calls, rfl⟩ := sweepStep_eq hsw
    exact sameIds_of_eq rfl rfl
  | upHook | stopHook => exact sameIds_of_eq (by simp) (by simp)
  | spawn hlock hpc hcore =>
    refine ⟨Nat.le_succ _, fun g hg => ?_⟩
    have hne : g ≠ s.nGen := Nat.ne_of_lt hg
    simp [hne]
  | _ => exact sameIds_of_eq rfl rfl

theorem Move.sameIds {a : Action} (h : Move env s a s') : SameIds s s' := by
  cases h with
  | conn h => exact h.sameIds
  | monitor h =>
    cases h with
    | sweep hpc hsw | swept hpc hsw =>
      obtain ⟨hooks, n, calls, rfl⟩ := sweepStep_eq hsw
      exact sameIds_of_eq rfl rfl
    | downHook => exact sameIds_of_eq (by simp) (by simp)
    | reap => exact sameIds_setLife _ _
    | _ => exact sameIds_of_eq rfl rfl
  | other h =>
    cases h with
    | main _ hsw | serve _ hsw =>
      obtain ⟨hooks, n, calls, rfl⟩ := sweepStep_eq hsw
      exact sameIds_of_eq rfl rfl
    | die => exact sameIds_setLife _ _
    | _ => exact sameIds_of_eq rfl rfl

theorem Started.step {a : Action} (hS : Started s) (h : Move env s a s') : Started s' := by
  intro c
  refine h.forall_pc (Q := fun _ pc => ∀ g, pc = .spawnMonitor g ∨ pc = .upHook g → g < s'.nGen)
    ?_ ?_ ?_ c
  · intro g hg
    rcases hg with hg | hg
    · cases hg
    · cases hg
  · intro c ans h _ g hg
    have hle := h.sameIds.1
    have hold : (s.conns c).pc = .spawnMonitor g → g < s'.nGen :=
      fun hpc => Nat.lt_of_lt_of_le (hS c g (.inl hpc)) hle
    have hkeep : (s'.conns c).pc = (s.conns c).pc → g < s'.nGen := by
      intro he
      rw [he] at hg
      exact Nat.lt_of_lt_of_le (hS c g hg) hle
    cases h with
    | sweep hpc hsw | swept hpc hsw =>
      obtain ⟨hooks, n, calls, rfl⟩ := sweepStep_eq hsw
      simp at hg
    | spawn =>
      have hg : s.nGen = g := by simpa using hg
      rw [← hg]
      exact Nat.lt_succ_self _
    | @spawnMonitor _ k hpc =>
      have hg : k = g := by simpa using hg
      exact hold (hg ▸ hpc)
    | @stopIdle _ r | @stopHook _ r => cases r <;> simp [Sys.afterStopPc] at hg
    | refill | loopBlank | stopAgain | exit => exact hkeep (by simp)
    | _ => simp at hg
  · intro c g hg
    exact Nat.lt_of_lt_of_le (hS c g hg) h.sameIds.1

theorem started_of_reachable (h : (supervisor env).Reachable s) : Started s := by
  refine h.invariant (fun c g hg => ?_) fun _ hS _ hs => hS.step (step_move hs).2
  rcases hg with hg | hg
  · cases hg
  · cases hg

theorem phase_eq_of_pc (hpc : (s'.conns d).pc = (s.conns d).pc) (hS : Started s)
    (hids : SameIds s s') : s'.phase d = s.phase d := by
  unfold Sys.phase
  rw [hpc]
  cases hd : (s.conns d).pc with
  | spawnMonitor g =>
    obtain ⟨hpid, hport⟩ := hids.2 g (hS d g (.inl hd))
    show Phase.answered _ = Phase.answered _
    rw [hpid, hport]
  | upHook g =>
    obtain ⟨hpid, hport⟩ := hids.2 g (hS d g (.inr hd))
    show Phase.answered _ = Phase.answered _
    rw [hpid, hport]
  | _ => rfl

theorem Sys.coreSnapshot_eq (s : Sys) : s.coreSnapshot =
    (s.core.view.state, s.core.view.map Prod.fst, s.core.view.map Prod.snd) := by
  unfold Sys.coreSnapshot
  cases s.core <;> rfl

/-! ## A step of a connection -/

/-- What a step of the thread of connection `c` is to the object. -/
inductive Commanded (env : Env) (s : Sys) (c : ConnId) (s' : Sys) : Prop
  | quiet (hcore : s'.core.view = s.core.view) (hphase : s'.phase c = s.phase c)
  | call {k : CoreCall} (hcore : s'.core.view = s.core.view) (hidle : s.phase c = .idle)
      (hphase : s'.phase c = .called k)
  | bad {code msg : String} (hcore : s'.core.view = s.core.view) (hidle : s.phase c = .idle)
      (hphase : s'.phase c = .answered (.error code msg))
  | perform {k : CoreCall} {out : CoreCall ⊕ Event} (hcalled : s.phase c = .called k)
      (hout : out ≠ .inl k) (hphase : s'.phase c = .of out)
      (hperform : Performs env.version s.core.view k out s'.core.view)
  | ret {l : Line} (hcore : s'.core.view = s.core.view) (hanswered : s.phase c = .answered l.ev)
      (hphase : s'.phase c = .idle) (hout : (s'.conns c).out = (s.conns c).out ++ [l])

theorem phase_of_pc {pc : ConnPc} (hpc : (s.conns c).pc = pc) : s.phase c = pc.phase s.children := by
  unfold Sys.phase
  rw [hpc]

theorem phase_setPc (s : Sys) (c : ConnId) (pc : ConnPc) :
    (s.setPc c pc).phase c = pc.phase s.children :=
  phase_of_pc (by simp)

/-- The thread stays where its client is idle. -/
theorem commanded_idle {pc pc' : ConnPc} {s₁ : Sys} (hcore : s₁.core.view = s.core.view)
    (hpc : (s.conns c).pc = pc) (hidle : pc.phase s.children = .idle)
    (hidle' : pc'.phase s₁.children = .idle) : Commanded env s c (s₁.setPc c pc') := by
  refine .quiet hcore ?_
  rw [phase_setPc, hidle', phase_of_pc hpc, hidle]

/-- A critical section of a command. -/
theorem commanded_perform {pc pc' : ConnPc} {s₁ : Sys} {k : CoreCall} (out : CoreCall ⊕ Event)
    (hpc : (s.conns c).pc = pc) (hcalled : pc.phase s.children = .called k)
    (hout : out ≠ .inl k) (hphase : pc'.phase s₁.children = .of out)
    (hperform : Performs env.version s.core.view k out s₁.core.view) :
    Commanded env s c (s₁.setPc c pc') := by
  refine .perform ((phase_of_pc hpc).trans hcalled) hout ?_ hperform
  rw [phase_setPc, hphase]

theorem ConnMove.commanded (h : ConnMove env s c ans s') (hS : Started s) : Commanded env s c s' := by
  have hids := h.sameIds
  cases h with
  | sweep hpc hsw | swept hpc hsw =>
    obtain ⟨hooks, n, calls, rfl⟩ := sweepStep_eq hsw
    exact commanded_idle rfl hpc rfl rfl
  | refill | loopBlank | stopAgain | exit =>
    exact .quiet rfl (phase_eq_of_pc (by simp) hS hids)
  | gate hpc | reject hpc | helloFail hpc | helloDrop hpc | helloRefuse hpc
  | refused hpc | busy _ hpc | takeover _ hpc | kickWrite hpc | kickSkip hpc | loopFail hpc
  | loopEnd hpc | endedKicked hpc | endedOwner hpc | giveUp _ hpc | giveUpOther _ hpc | join hpc =>
    exact commanded_idle rfl hpc rfl rfl
  | @helloAccept l rest takeover hpc =>
    have hpc' : (((s.setBuf c rest).takeId c takeover).conns c).pc = .lease takeover := by simp
    exact .quiet rfl ((phase_of_pc hpc').trans (phase_of_pc hpc).symm)
  | accept _ hpc | kickShutdown hpc | loopStart hpc | loopStatus hpc | loopStop hpc =>
    exact .call rfl (phase_of_pc hpc) (phase_setPc _ _ _)
  | loopError hpc => exact .bad rfl (phase_of_pc hpc) (phase_setPc _ _ _)
  | helloSnap _ hpc =>
    refine commanded_perform (.inr _) hpc rfl (by simp) rfl ?_
    rw [Sys.coreSnapshot_eq]
    exact .hello _
  | statusSnap _ hpc =>
    refine commanded_perform (.inr _) hpc rfl (by simp) rfl ?_
    rw [Sys.coreSnapshot_eq]
    exact .status _
  | @startRunning r _ hpc hcore =>
    refine commanded_perform (.inr _) hpc rfl (by simp) rfl ?_
    rw [hcore]
    exact .running
  | startFailed _ hpc hcore =>
    refine commanded_perform (.inr _) hpc rfl (by simp) rfl ?_
    rw [hcore]
    exact .spawnFailed
  | @spawn pid port _ hpc hcore =>
    refine commanded_perform (.inr (.coreStarted pid port)) hpc rfl (by simp) ?_ ?_
    · simp [ConnPc.phase, Phase.of]
    · rw [hcore]
      exact .spawned
  | spawnMonitor hpc => exact .quiet rfl ((phase_setPc _ _ _).trans (phase_of_pc hpc).symm)
  | upHook hpc =>
    refine .quiet (by simp) ?_
    rw [phase_setPc, phase_of_pc hpc]
    rfl
  | @stopIdle _ r _ hpc hcore =>
    cases r with
    | ownerDrop => exact commanded_idle rfl hpc rfl rfl
    | _ =>
      refine commanded_perform (.inr (.coreStopped "already_stopped")) hpc rfl (by simp) rfl ?_
      rw [hcore]
      exact .alreadyStopped
  | @stopMark _ r run _ hpc hcore =>
    cases r with
    | ownerDrop =>
      refine commanded_idle ?_ hpc rfl rfl
      rw [hcore]
      rfl
    | _ =>
      refine commanded_perform (.inl .await) hpc rfl (by simp) rfl ?_
      rw [hcore]
      exact .found
  | @stopSeen _ r g _ hpc hcore =>
    cases r with
    | ownerDrop => exact commanded_idle rfl hpc rfl rfl
    | _ =>
      refine commanded_perform (.inr (.coreStopped "requested")) hpc rfl (by simp) rfl ?_
      rw [hcore]
      exact .stopped
  | @stopHook st r g hpc =>
    refine .quiet (by simp) ?_
    show Sys.phase (Sys.setPc _ c _) c = s.phase c
    rw [phase_setPc, phase_of_pc hpc]
    cases r <;> rfl
  | helloWrite hpc | reply hpc =>
    exact .ret rfl (phase_of_pc hpc) (phase_setPc _ _ _) (by simp)

end EasyTierMac.Supervisor
