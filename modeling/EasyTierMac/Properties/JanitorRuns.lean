import EasyTierMac.Supervisor.Sweeps

/-!
# Whom the janitor kills in a run

A sweep takes its time: `ps` answers once, and the `kill`s follow one by one while the other
threads go on. `Sightings` records what each sweep has seen and done. `janitor_spares` says, of
every run, that a sweep only ever goes for processes that its own `ps` has listed with the
command line of a core, and never for the supervisor; that the sweep at activation and the
guarded ones list no core of this supervisor, and that none can be started until they have
ended; that a teardown's sweep does not list the core which the teardown has stopped; and that
the janitor's hook is called once for each sweep that has killed something.
-/

namespace EasyTierMac.Supervisor

open Function (update update_apply)
open Rust (Text)
open Transition (System)

variable {env : Env} {s s' : Sys} {a : Action}

/-! ## What `ps` prints -/

/-- A process whose command line is one line, as `ps` prints it. -/
def Proc.process (p : Proc) (h : '\n' ∉ p.args) : Process where
  pid := p.pid
  argv0 := p.args
  args := []
  pad := 0
  no_newline a ha := by
    rw [List.mem_singleton.mp ha]
    exact h

theorem Proc.process_commandLine (p : Proc) (h : '\n' ∉ p.args) :
    (p.process h).commandLine = p.args := List.append_nil _

theorem psOutput_eq (procs : List Proc) (h : ∀ p ∈ procs, '\n' ∉ p.args) :
    psOutput procs = psText (procs.attach.map fun p => p.1.process (h p.1 p.2)) := by
  have hline : ∀ p : { p // p ∈ procs }, p.1.line = (p.1.process (h p.1 p.2)).row ++ ['\n'] := by
    intro p
    unfold Proc.line Process.row
    rw [Proc.process_commandLine]
    simp [Proc.process]
  unfold psOutput psText
  conv_lhs => rw [← List.attach_map_subtype_val procs]
  rw [List.flatMap_map, List.map_map, List.flatMap_map]
  congr 1
  funext p
  exact hline p

/-- The pids that a sweep goes for are in the table, with the command line of a core. -/
theorem listed_of_orphan {procs : List Proc} (h : ∀ p ∈ procs, '\n' ∉ p.args) {pid : Int32}
    (hpid : pid ∈ orphanPids env.config.corePath env.selfPid none (psOutput procs)) :
    pid ≠ env.selfPid ∧ ∃ p ∈ procs, p.pid = pid ∧ Shows env.config.corePath p.args := by
  rw [psOutput_eq procs h] at hpid
  obtain ⟨hself, -, q, hq, rfl, hshows⟩ := mem_orphanPids.mp hpid
  obtain ⟨p, -, rfl⟩ := List.mem_map.mp hq
  rw [Proc.process_commandLine] at hshows
  exact ⟨hself, p.1, p.2, rfl, hshows⟩

/-- A process that appears has its command line on one line. -/
def oneLine : Action → Bool
  | .appear p => !p.args.contains '\n'
  | _ => true

/-- `try_wait` reports no error, and `ps` prints every process on one line. -/
def Orderly (s : Sys) (a : Action) : Prop := NoWaitError s a ∧ oneLine a = true

instance : ∀ s a, Decidable (Orderly s a) := fun _ _ => inferInstanceAs (Decidable (_ ∧ _))

theorem Move.procs_eq (h : Move env s a s') :
    s'.procs = s.procs ∨ (∃ p, a = .appear p) ∨ ∃ pid, a = .vanish pid := by
  cases h with
  | conn h =>
    left
    cases h with
    | sweep hpc hsw | swept hpc hsw =>
      obtain ⟨hooks, n, calls, rfl⟩ := sweepStep_eq hsw
      rfl
    | @upHook st g =>
      obtain ⟨hooks, n, he⟩ := s.runHook_eq env ⟨.up, none, some g⟩ none st
      rw [he]
      rfl
    | @stopHook st r g =>
      obtain ⟨hooks, n, he⟩ := s.runHook_eq env ⟨.down, some r, some g⟩
        (if r = .ownerDrop then some _ else none) st
      rw [he]
      rfl
    | _ => rfl
  | monitor h =>
    left
    cases h with
    | sweep hpc hsw | swept hpc hsw =>
      obtain ⟨hooks, n, calls, rfl⟩ := sweepStep_eq hsw
      rfl
    | @downHook st =>
      obtain ⟨hooks, n, he⟩ := s.runHook_eq env ⟨.down, some .coreExited, some _⟩ none st
      rw [he]
      rfl
    | _ => rfl
  | other h =>
    cases h with
    | main hm hsw | serve hm hsw =>
      obtain ⟨hooks, n, calls, rfl⟩ := sweepStep_eq hsw
      exact .inl rfl
    | procs ha => exact .inr ha
    | _ => exact .inl rfl

/-- No command line in the process table has a line break. -/
theorem procs_oneLine (h : (supervisor env).ReachableBy Orderly s) :
    ∀ p ∈ s.procs, '\n' ∉ p.args := by
  refine h.invariant (I := fun s => ∀ p ∈ s.procs, '\n' ∉ p.args) 
    (fun p hp => absurd hp List.not_mem_nil) ?_
  intro s a s' _ hI hp hs p hmem
  obtain ⟨hex, hmove⟩ := step_move hs
  rcases hmove.procs_eq with he | ⟨q, rfl⟩ | ⟨pid, rfl⟩
  · rw [he] at hmem
    exact hI p hmem
  · have hs' : s' = { s with procs := q :: s.procs } := by
      simpa [step, hex] using hs.symm
    subst hs'
    rcases List.mem_cons.mp hmem with rfl | hmem
    · have hone := hp.2
      simpa [oneLine] using hone
    · exact hI p hmem
  · have hs' : s' = { s with procs := s.procs.filter fun p => p.pid != pid } := by
      simpa [step, hex] using hs.symm
    subst hs'
    exact hI p (List.mem_of_mem_filter hmem)

theorem procTable_oneLine (hpath : '\n' ∉ env.config.corePath)
    (h : (supervisor env).ReachableBy Orderly s) : ∀ p ∈ s.procTable env, '\n' ∉ p.args := by
  intro p hp
  rcases List.mem_append.mp hp with hp | hp
  · obtain ⟨g, -, rfl⟩ := List.mem_map.mp hp
    intro hmem
    have hport : ∀ c ∈ (toString (s.children g).rpcPort.toNat).toList, c ≠ '\n' := by
      rintro c hc rfl
      have hws := Rust.isWhitespace_toString (n := ((s.children g).rpcPort.toNat : Int)) hc
      cases hws
    rcases List.mem_append.mp hmem with hmem | hmem
    · rcases List.mem_append.mp hmem with hmem | hmem
      · exact hpath hmem
      · revert hmem
        decide
    · exact hport _ hmem rfl
  · exact procs_oneLine h p hp

/-! ## Cores that a teardown has stopped -/

/-- The core that the teardown of a connection has marked is awaited, or gone. -/
def Outlived (s : Sys) : Prop := ∀ c g, ⟨c, .ownerDrop, g⟩ ∈ s.stopCalls →
  g < s.nGen ∧ ((s.conns c).pc = .stopWait .ownerDrop g ∨ (s.children g).life = .reaped)

theorem Move.stopCalls_cases (h : Move env s a s') : s'.stopCalls = s.stopCalls ∨
    ∃ c ans r run, a = .conn c ans ∧ (s.conns c).pc = .stopLock r ∧ s.core = .running run ∧
      s'.stopCalls = s.stopCalls ++ [⟨c, r, s.nGen - 1⟩] ∧
      (s'.conns c).pc = .stopWait r (s.nGen - 1) ∧ s'.nGen = s.nGen := by
  cases h with
  | @conn c ans _ h =>
    cases h with
    | sweep hpc hsw | swept hpc hsw =>
      obtain ⟨hooks, n, calls, rfl⟩ := sweepStep_eq hsw
      exact .inl rfl
    | upHook | stopHook => exact .inl (by simp [Sys.afterStop])
    | @stopMark _ r run hlock hpc hcore =>
      exact .inr ⟨c, ans, r, run, rfl, hpc, hcore, rfl, by simp, rfl⟩
    | _ => exact .inl rfl
  | monitor h =>
    left
    cases h with
    | sweep hpc hsw | swept hpc hsw =>
      obtain ⟨hooks, n, calls, rfl⟩ := sweepStep_eq hsw
      rfl
    | downHook => simp
    | _ => rfl
  | other h =>
    left
    cases h with
    | main hm hsw | serve hm hsw =>
      obtain ⟨hooks, n, calls, rfl⟩ := sweepStep_eq hsw
      rfl
    | _ => rfl

/-- A core that has been reaped stays so. -/
theorem Move.reaped_keep (h : Move env s a s') {g : Gen} (hg : g < s.nGen)
    (hlife : (s.children g).life = .reaped) : (s'.children g).life = .reaped := by
  cases h with
  | conn h =>
    cases h with
    | sweep hpc hsw | swept hpc hsw =>
      obtain ⟨hooks, n, calls, rfl⟩ := sweepStep_eq hsw
      exact hlife
    | upHook | stopHook => simpa [Sys.afterStop] using hlife
    | @spawn pid port =>
      have hne : g ≠ s.nGen := Nat.ne_of_lt hg
      simpa [Sys.spawnChild, hne] using hlife
    | _ => exact hlife
  | @monitor k _ _ h =>
    by_cases hk : g = k
    · subst hk
      cases h with
      | sweep hpc hsw | swept hpc hsw =>
        obtain ⟨hooks, n, calls, rfl⟩ := sweepStep_eq hsw
        exact hlife
      | reap => simp [Sys.setLife]
      | downHook => simpa using hlife
      | _ => exact hlife
    · rw [h.children_of_ne hk]
      exact hlife
  | other h =>
    cases h with
    | main hm hsw | serve hm hsw =>
      obtain ⟨hooks, n, calls, rfl⟩ := sweepStep_eq hsw
      exact hlife
    | @die k info halive =>
      have hne : g ≠ k := by
        rintro rfl
        rw [hlife] at halive
        cases halive
      simpa [Sys.setLife, hne] using hlife
    | _ => exact hlife

theorem Move.nGen_le (h : Move env s a s') : s.nGen ≤ s'.nGen := by
  cases h with
  | conn h =>
    rcases h.core_cases with ⟨-, hn, -⟩ | ⟨-, -, _, _, -, -, hn⟩ | ⟨_, _, -, -, -, hn, -, -⟩
    · exact hn.ge
    · rw [hn]
      exact Nat.le_succ _
    · exact hn.ge
  | monitor h => exact h.nGen_eq.ge
  | other h => exact h.nGen_eq.ge

/-- A `stop` leaves its wait loop when the core is stopped. -/
theorem ConnMove.stopWait_cases {c : ConnId} {ans : Answer} (h : ConnMove env s c ans s')
    {r : HookReason} {g : Gen} (hpc : (s.conns c).pc = .stopWait r g) :
    (s'.conns c).pc = .stopWait r g ∨ s.core = .stopped ∧ s'.children = s.children := by
  cases h with
  | stopSeen hlock hpc' hcore => exact .inr ⟨hcore, rfl⟩
  | stopAgain => exact .inl hpc
  | refill hpc' => rcases hpc' with hpc' | hpc' <;> simp [hpc] at hpc'
  | _ => simp_all

theorem outlived_of_reachable (h : (supervisor env).ReachableBy NoWaitError s) : Outlived s := by
  refine h.invariant (I := Outlived) (fun c g hmem => absurd hmem List.not_mem_nil) ?_
  intro s a s' hr hI _ hs c g hmem
  have hmove := (step_move hs).2
  have hkeep : ∀ {c g}, ⟨c, .ownerDrop, g⟩ ∈ s.stopCalls →
      g < s'.nGen ∧ ((s'.conns c).pc = .stopWait .ownerDrop g ∨ (s'.children g).life = .reaped) := by
    intro c g hold
    obtain ⟨hg, hcase⟩ := hI c g hold
    refine ⟨Nat.lt_of_lt_of_le hg hmove.nGen_le, ?_⟩
    rcases hcase with hpc | hlife
    · have hc : c < s.nConns := by
        by_contra hle
        rw [(Accepted.of_reachable hr.reachable).closed c (Nat.le_of_not_lt hle)] at hpc
        cases hpc
      rcases hmove.own_or_keep hc with ⟨ans, -, h⟩ | he
      · rcases h.stopWait_cases hpc with hpc' | ⟨hcore, hch⟩
        · exact .inl hpc'
        · right
          rw [hch]
          exact (coreTracked_of_reachable hr).stopped hcore g
      · exact .inl (he.trans hpc)
    · exact .inr (hmove.reaped_keep hg hlife)
  rcases hmove.stopCalls_cases with he | ⟨d, ans, r, run, -, -, hcore, he, hpc, hn⟩
  · rw [he] at hmem
    exact hkeep hmem
  · rw [he] at hmem
    rcases List.mem_append.mp hmem with hmem | hmem
    · exact hkeep hmem
    · cases List.mem_singleton.mp hmem
      obtain ⟨k, hk, -⟩ := (base_of_reachable hr.reachable).latest run hcore
      have hk : s.nGen = k + 1 := hk
      refine ⟨?_, .inl hpc⟩
      rw [hn, hk]
      exact Nat.lt_succ_self k

/-! ## The record -/

/-- The cores of the supervisor that `ps` lists. -/
def Sys.liveGens (s : Sys) : List Gen :=
  (List.range s.nGen).filter fun g => (s.children g).life == .alive

/-- What the sweeps of a run have seen and done. -/
structure Sightings where
  /-- The process table that the last `ps` of a thread has printed. -/
  table : Sweeper → List Proc := fun _ => []
  /-- The cores of the supervisor in it. -/
  cores : Sweeper → List Gen := fun _ => []
  /-- How many `kill`s of the thread have succeeded since. -/
  killed : Sweeper → Nat := fun _ => 0
  /-- How many sweeps have ended and had killed something. -/
  fruitful : Nat := 0

/-- What a call of a sweep adds. -/
def Sightings.call (env : Env) (s : Sys) (w : Sweeper) (r : Sightings) : Sweep → Answer → Sightings
  | .ps, .done =>
    { r with
      table := update r.table w (s.procTable env)
      cores := update r.cores w s.liveGens
      killed := update r.killed w 0 }
  | .kill (_ :: _) _, .killed true => { r with killed := update r.killed w (r.killed w + 1) }
  | .kill [] _, _ => { r with fruitful := r.fruitful + if r.killed w = 0 then 0 else 1 }
  | _, _ => r

def noteSweep (env : Env) (s : Sys) (a : Action) (r : Sightings) : Sightings :=
  (a.sweeper.bind fun p => (s.sweepOf p.1).map fun sw => r.call env s p.1 sw p.2).getD r

/-- The supervisor with the record of its sweeps. -/
def sweeping (env : Env) : System (Sys × Sightings) Action :=
  (supervisor env).recording {} (noteSweep env)

/-- The record and the sweeps agree. -/
structure Sighted (env : Env) (s : Sys) (r : Sightings) : Prop where
  pids : ∀ w todo killed, s.sweepOf w = some (.kill todo killed) →
    killed = r.killed w ∧ ∀ pid ∈ todo, pid ≠ env.selfPid ∧
      ∃ p ∈ r.table w, p.pid = pid ∧ Shows env.config.corePath p.args
  own : ∀ w, w.guarded = true → r.cores w = []
  torn : ∀ c todo killed, s.sweepOf (.conn c) = some (.kill todo killed) →
    ∀ g, ⟨c, .ownerDrop, g⟩ ∈ s.stopCalls → g ∉ r.cores (.conn c)
  hooks : s.hookCalls.count janitorCall = r.fruitful

theorem noteSweep_of_none {r : Sightings}
    (ha : ∀ w ans, a.sweeper = some (w, ans) → s.sweepOf w = none) : noteSweep env s a r = r := by
  unfold noteSweep
  cases hw : a.sweeper with
  | none => rfl
  | some p =>
    rw [Option.bind_some, ha p.1 p.2 hw]
    rfl

theorem noteSweep_call {r : Sightings} {w : Sweeper} {ans : Answer} {sw : Sweep}
    (ha : a.sweeper = some (w, ans)) (hw : s.sweepOf w = some sw) :
    noteSweep env s a r = r.call env s w sw ans := by
  unfold noteSweep
  rw [ha, Option.bind_some, hw]
  rfl

/-- A step that is no call of a sweep. -/
theorem Sighted.other {r : Sightings} (hI : Sighted env s r) (hmove : Move env s a s')
    (hcalls : s'.hookCalls.count janitorCall = s.hookCalls.count janitorCall)
    (hsw : ∀ w, s'.sweepOf w = s.sweepOf w ∨ s.sweepOf w = none ∧ s'.sweepOf w = some .ps) :
    Sighted env s' r := by
  have hold : ∀ {w todo killed}, s'.sweepOf w = some (.kill todo killed) →
      s.sweepOf w = some (.kill todo killed) := by
    intro w todo killed hk
    rcases hsw w with he | ⟨-, he⟩
    · rw [← he]
      exact hk
    · rw [he] at hk
      cases hk
  constructor
  · intro w todo killed hk
    exact hI.pids w todo killed (hold hk)
  · exact hI.own
  · intro c todo killed hk g hmem
    refine hI.torn c todo killed (hold hk) g ?_
    rcases hmove.stopCalls_cases with he | ⟨d, ans, r, run, -, hpc, -, he, hpc', -⟩
    · rw [← he]
      exact hmem
    · rw [he] at hmem
      rcases List.mem_append.mp hmem with hmem | hmem
      · exact hmem
      · -- the connection that has marked the core is not in its sweep
        cases List.mem_singleton.mp hmem
        have hno : s'.sweepOf (.conn c) = none := by
          show (s'.conns c).pc.sweep? = none
          rw [hpc']
          rfl
        rw [hno] at hk
        cases hk
  · rw [hcalls]
    exact hI.hooks

/-- A step that changes the sweep and the record of one thread. -/
theorem Sighted.only {r r' : Sightings} (hI : Sighted env s r) (w : Sweeper)
    (hstop : s'.stopCalls = s.stopCalls)
    (hne : ∀ v, v ≠ w → s'.sweepOf v = s.sweepOf v ∧ r'.table v = r.table v ∧
      r'.cores v = r.cores v ∧ r'.killed v = r.killed v)
    (hpids : ∀ todo killed, s'.sweepOf w = some (.kill todo killed) →
      killed = r'.killed w ∧ ∀ pid ∈ todo, pid ≠ env.selfPid ∧
        ∃ p ∈ r'.table w, p.pid = pid ∧ Shows env.config.corePath p.args)
    (hown : w.guarded = true → r'.cores w = [])
    (htorn : ∀ c todo killed, w = .conn c → s'.sweepOf w = some (.kill todo killed) →
      ∀ g, ⟨c, .ownerDrop, g⟩ ∈ s.stopCalls → g ∉ r'.cores w)
    (hhooks : s'.hookCalls.count janitorCall = r'.fruitful) : Sighted env s' r' := by
  refine ⟨fun v todo killed hk => ?_, fun v hv => ?_, fun c todo killed hk g hmem => ?_, hhooks⟩
  · by_cases hvw : v = w
    · subst hvw
      exact hpids todo killed hk
    · obtain ⟨he, htable, -, hkilled⟩ := hne v hvw
      rw [htable, hkilled]
      exact hI.pids v todo killed (he.symm.trans hk)
  · by_cases hvw : v = w
    · subst hvw
      exact hown hv
    · rw [(hne v hvw).2.2.1]
      exact hI.own v hv
  · rw [hstop] at hmem
    by_cases hvw : .conn c = w
    · subst hvw
      exact htorn c todo killed rfl hk g hmem
    · obtain ⟨he, -, hcores, -⟩ := hne (.conn c) hvw
      rw [hcores]
      exact hI.torn c todo killed (he.symm.trans hk) g hmem

/-- What a sweep lists when it runs `ps`. -/
theorem liveGens_guarded (hr : (supervisor env).ReachableBy Orderly s) {w : Sweeper} {sw : Sweep}
    (hw : s.sweepOf w = some sw) (hg : w.guarded = true) : s.liveGens = [] := by
  have hcore := (guarded_of_reachable hr.reachable).core hg (by rw [hw]; rfl)
  apply List.filter_eq_nil_iff.mpr
  intro g _
  rw [(coreTracked_of_reachable (hr.mono fun _ _ hp => hp.1)).stopped hcore g]
  decide

/-- A core that the teardown of a connection has stopped is gone when the teardown sweeps. -/
theorem reaped_of_torn (hr : (supervisor env).ReachableBy NoWaitError s) {c : ConnId} {sw : Sweep}
    (hw : s.sweepOf (.conn c) = some sw) {g : Gen} (hmem : ⟨c, .ownerDrop, g⟩ ∈ s.stopCalls) :
    (s.children g).life = .reaped := by
  rcases (outlived_of_reachable hr c g hmem).2 with hpc | hgone
  · have hno : s.sweepOf (.conn c) = none := by
      show (s.conns c).pc.sweep? = none
      rw [hpc]
      rfl
    rw [hno] at hw
    cases hw
  · exact hgone

/-- A call of a sweep. -/
theorem Sighted.call {r : Sightings} (hpath : '\n' ∉ env.config.corePath)
    (hr : (supervisor env).ReachableBy Orderly s) (hI : Sighted env s r) {w : Sweeper} {ans : Answer}
    {sw : Sweep} {s₁ : Sys} {next : Option Sweep} (hstop : s'.stopCalls = s.stopCalls)
    (hw : s.sweepOf w = some sw) (hsw : sweepStep env s sw ans = some (s₁, next))
    (hw' : s'.sweepOf w = next) (hcalls : s'.hookCalls = s₁.hookCalls)
    (hne : ∀ v, v ≠ w → s'.sweepOf v = s.sweepOf v) :
    Sighted env s' (r.call env s w sw ans) := by
  cases sweepStep_call hsw with
  | noPs =>
    refine hI.only w hstop (fun v hv => ⟨hne v hv, rfl, rfl, rfl⟩) ?_ (hI.own w) ?_ ?_
    · intro todo killed hk
      rw [hw'] at hk
      cases hk
    · intro c todo killed _ hk
      rw [hw'] at hk
      cases hk
    · rw [hcalls]
      exact hI.hooks
  | ps =>
    refine hI.only w hstop (fun v hv => ⟨hne v hv, ?_, ?_, ?_⟩) ?_ ?_ ?_ ?_
    · exact Function.update_of_ne hv _ _
    · exact Function.update_of_ne hv _ _
    · exact Function.update_of_ne hv _ _
    · intro todo killed hk
      rw [hw'] at hk
      cases hk
      refine ⟨(Function.update_self w 0 r.killed).symm, fun pid hpid => ?_⟩
      have htable : (r.call env s w .ps .done).table w = s.procTable env :=
        Function.update_self w _ r.table
      rw [htable]
      exact listed_of_orphan (procTable_oneLine hpath hr) hpid
    · intro hg
      exact (Function.update_self w _ r.cores).trans (liveGens_guarded hr hw hg)
    · rintro c todo killed rfl - g hmem
      have hcores : (r.call env s (.conn c) .ps .done).cores (.conn c) = s.liveGens :=
        Function.update_self _ _ r.cores
      rw [hcores]
      intro hlive
      have halive := (List.mem_filter.mp hlive).2
      rw [reaped_of_torn (hr.mono fun _ _ hp => hp.1) hw hmem] at halive
      cases halive
    · rw [hcalls]
      exact hI.hooks
  | @kill pid todo killed ok =>
    obtain ⟨hcount, hpids⟩ := hI.pids w _ _ hw
    have hrest : ∀ q ∈ todo, q ≠ env.selfPid ∧
        ∃ p ∈ r.table w, p.pid = q ∧ Shows env.config.corePath p.args := by
      intro q hq
      exact hpids q (List.mem_cons_of_mem _ hq)
    cases ok with
    | false =>
      refine hI.only w hstop (fun v hv => ⟨hne v hv, rfl, rfl, rfl⟩) ?_ (hI.own w) ?_ ?_
      · intro todo' killed' hk
        rw [hw'] at hk
        cases hk
        exact ⟨hcount, hrest⟩
      · rintro c todo' killed' rfl - g hmem
        exact hI.torn c _ _ hw g hmem
      · rw [hcalls]
        exact hI.hooks
    | true =>
      refine hI.only w hstop (fun v hv => ⟨hne v hv, rfl, rfl, ?_⟩) ?_ (hI.own w) ?_ ?_
      · exact Function.update_of_ne hv _ _
      · intro todo' killed' hk
        rw [hw'] at hk
        cases hk
        refine ⟨?_, hrest⟩
        rw [if_pos rfl, hcount]
        exact (Function.update_self w _ r.killed).symm
      · rintro c todo' killed' rfl - g hmem
        exact hI.torn c _ _ hw g hmem
      · rw [hcalls]
        exact hI.hooks
  | quiet =>
    obtain ⟨hcount, -⟩ := hI.pids w _ _ hw
    refine hI.only w hstop (fun v hv => ⟨hne v hv, rfl, rfl, rfl⟩) ?_ (hI.own w) ?_ ?_
    · intro todo killed hk
      rw [hw'] at hk
      cases hk
    · intro c todo killed _ hk
      rw [hw'] at hk
      cases hk
    · show s'.hookCalls.count janitorCall = r.fruitful + if r.killed w = 0 then 0 else 1
      rw [hcalls, if_pos hcount.symm]
      exact hI.hooks
  | @hook killed st =>
    obtain ⟨hcount, -⟩ := hI.pids w _ _ hw
    refine hI.only w hstop (fun v hv => ⟨hne v hv, rfl, rfl, rfl⟩) ?_ (hI.own w) ?_ ?_
    · intro todo killed hk
      rw [hw'] at hk
      cases hk
    · intro c todo killed _ hk
      rw [hw'] at hk
      cases hk
    · show s'.hookCalls.count janitorCall = r.fruitful + if r.killed w = 0 then 0 else 1
      have hne0 : ¬ r.killed w = 0 := by omega
      rw [hcalls, if_neg hne0, hookCalls_runHook, List.count_append, hI.hooks]
      rfl

theorem sighted_of_reachable (hpath : '\n' ∉ env.config.corePath) {p : Sys × Sightings}
    (h : (sweeping env).ReachableBy (fun p a => Orderly p.1 a) p) : Sighted env p.1 p.2 := by
  have hinit : Sighted env {} {} := by
    refine ⟨fun w todo killed hk => ?_, fun _ _ => rfl, fun c todo killed hk => ?_, rfl⟩
    · cases w <;> cases hk
    · cases hk
  refine h.invariant (I := fun p => Sighted env p.1 p.2) hinit ?_
  intro p a p' hreach hI hp hs
  have hr : (supervisor env).ReachableBy Orderly p.1 := hreach.of_recording
  have hmove := (step_move hs.1).2
  rw [hs.2]
  cases hmove.sweeps hr.reachable with
  | other ha hcalls hsw =>
    rw [noteSweep_of_none ha]
    exact hI.other hmove hcalls hsw
  | @call w ans sw s₁ next ha hw hsw hw' hcalls hne =>
    rw [noteSweep_call ha hw]
    refine hI.call hpath hr ?_ hw hsw hw' hcalls hne
    rcases hmove.stopCalls_cases with he | ⟨c, ans', r, run, rfl, hpc, -⟩
    · exact he
    · -- a connection that marks the core is in `stop`
      cases ha
      have hno : p.1.sweepOf (.conn c) = none := by
        show (p.1.conns c).pc.sweep? = none
        rw [hpc]
        rfl
      rw [hno] at hw
      cases hw

/-- While a guarded sweep is under way no core is started. -/
theorem Guarded.nGen_eq (hr : (supervisor env).Reachable s) {w : Sweeper} (hg : w.guarded = true)
    (hsw : (s.sweepOf w).isSome = true) (hs : step env s a = some s') : s'.nGen = s.nGen := by
  have hG := guarded_of_reachable hr
  cases (step_move hs).2 with
  | @conn c _ _ h =>
    cases w with
    | conn d => cases hg
    | monitor g =>
      have hl := hG.monitor g ((MonPc.sweeping_eq _).trans hsw)
      refine (h.core_eq_of_locked ?_).2
      rw [hl]
      exact Option.some_ne_none g
    | main =>
      have hmain : s.main ≠ .serving := by
        intro he
        rw [Sys.sweepOf, he] at hsw
        cases hsw
      have hc : s.nConns ≤ c := by
        rw [(hG.main hmain).1]
        exact Nat.zero_le c
      exact absurd ((Accepted.of_reachable hr).closed c hc) h.pc_ne_closed
  | monitor h => exact h.nGen_eq
  | other h => exact h.nGen_eq

/-- **Whom the janitor kills.** Whatever is still to be killed in a sweep was listed by its `ps`
with the command line of a core, and is not the supervisor. The sweep at activation and the
guarded ones never list a core of this supervisor, are under way one at a time and with every
core reaped, and keep `start` out. The sweep of a teardown does not list the core that the
teardown has stopped. The janitor's hook has been called once for each sweep that has killed
something. -/
theorem janitor_spares (env : Env) (hpath : '\n' ∉ env.config.corePath) (s : Sys) (r : Sightings)
    (h : (sweeping env).ReachableBy (fun p a => Orderly p.1 a) (s, r)) :
    (∀ w todo killed, s.sweepOf w = some (.kill todo killed) →
      killed = r.killed w ∧ ∀ pid ∈ todo, pid ≠ env.selfPid ∧
        ∃ p ∈ r.table w, p.pid = pid ∧ Shows env.config.corePath p.args) ∧
    (∀ w, w.guarded = true → r.cores w = [] ∧ ((s.sweepOf w).isSome = true →
      (∀ g, (s.children g).life = .reaped) ∧
      (∀ v, v.guarded = true → (s.sweepOf v).isSome = true → v = w) ∧
      ∀ a s', step env s a = some s' → s'.nGen = s.nGen)) ∧
    (∀ c todo killed, s.sweepOf (.conn c) = some (.kill todo killed) →
      ∀ g, ⟨c, .ownerDrop, g⟩ ∈ s.stopCalls →
        (s.children g).life = .reaped ∧ g ∉ r.cores (.conn c)) ∧
    s.hookCalls.count janitorCall = r.fruitful := by
  have hr : (supervisor env).ReachableBy Orderly s := h.of_recording
  have hI : Sighted env s r := sighted_of_reachable hpath h
  have hG := guarded_of_reachable hr.reachable
  have hcores := coreTracked_of_reachable (hr.mono fun _ _ hp => hp.1)
  refine ⟨hI.pids, ?_, ?_, hI.hooks⟩
  · intro w hg
    refine ⟨hI.own w hg, fun hsw => ⟨?_, ?_, ?_⟩⟩
    · exact hcores.stopped (hG.core hg hsw)
    · intro v hv hsv
      exact hG.unique hr.reachable hv hg hsv hsw
    · intro a s' hs
      exact Guarded.nGen_eq hr.reachable hg hsw hs
  · intro c todo killed hk g hmem
    exact ⟨reaped_of_torn (hr.mono fun _ _ hp => hp.1) hk hmem, hI.torn c todo killed hk g hmem⟩

/-- A predecessor has left two cores behind: the sweep at activation has killed one of them. -/
theorem janitor_spares_activation : ∃ s r, (sweeping Client.env).Reachable (s, r) ∧
    s.sweepOf .main = some (.kill [8] 1) ∧ (8 : Int32) ≠ 1 ∧ r.killed .main = 1 ∧
      ∃ p ∈ r.table .main, p.pid = 8 ∧ Shows Client.env.config.corePath p.args := by
  have hrec : sweeping Client.env = .ofStep ({}, {})
      (System.recordStep (step Client.env) (noteSweep Client.env)) := System.recording_ofStep
  have hrun : (System.runBy (System.recordStep (step Client.env) (noteSweep Client.env))
      (fun p a => Orderly p.1 a) ({}, {}) [.appear ⟨8, ['/', 'c', 'o', 'r', 'e']⟩,
        .appear ⟨7, ['/', 'c', 'o', 'r', 'e', ' ', '-', 'd']⟩, .main .done, .main (.killed true)]).any
      (fun p => decide (p.1.sweepOf .main = some (.kill [8] 1))) = true := by
    decide +kernel
  obtain ⟨⟨s, r⟩, hr, hd⟩ := System.exists_reachableBy_of_runBy hrun
  rw [← hrec] at hr
  have hsw : s.sweepOf .main = some (.kill [8] 1) := of_decide_eq_true hd
  obtain ⟨hpids, -⟩ := janitor_spares Client.env (by decide) s r hr
  obtain ⟨hkilled, hlisted⟩ := hpids .main [8] 1 hsw
  obtain ⟨hself, hp⟩ := hlisted 8 List.mem_cons_self
  exact ⟨s, r, hr.reachable, hsw, hself, hkilled.symm, hp⟩

end EasyTierMac.Supervisor
