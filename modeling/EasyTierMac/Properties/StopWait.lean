import EasyTierMac.Properties.OneCore

/-!
# `stop` waits for its own generation

`stop` marks the generation that runs and waits until the core entry says stopped. It looks
at the entry only, not at the generation. When a connection that has taken the lease over
starts a core between the `Stopped` transition and the next turn of the wait loop, the
waiter finds a core running and waits on, for a core that it has not marked
(`waits_for_later`).

As long as no core is started while a `stop` waits (`WakesFirst`), the first turn of the loop
after the transition is its last one, and the generation has been reaped by then.
-/

namespace EasyTierMac.Supervisor

variable {env : Env} {s s' : Sys}

/-- Every `stop` waits for the generation that it has marked, and for no other one. -/
structure StopsWithOwn (env : Env) (s : Sys) : Prop where
  /-- A `stop` that is past its wait loop has seen its generation reaped. -/
  reaped : ∀ c r g, (s.conns c).pc = .stopHook r g → (s.children g).life = .reaped
  /-- Once its generation is past the `Stopped` transition, a `stop` that gets the lock
  leaves the loop. -/
  leaves : ∀ c r g, (s.conns c).pc = .stopWait r g → (s.monitors g).pc.phase.settled →
    ∀ ans s', step env s (.conn c ans) = some s' → (s'.conns c).pc = .stopHook r g

/-- In the wait loop of `stop`. -/
def ConnPc.inWait : ConnPc → Bool
  | .stopWait _ _ => true
  | _ => false

/-- A `start` spawns a core while some `stop` is in its wait loop. -/
def startsInStop (s : Sys) : Action → Bool
  | .conn c (.spawn (.child _ _)) =>
    (s.conns c).pc == .startLock && (List.range s.nConns).any fun d => (s.conns d).pc.inWait
  | _ => false

/-- No error of `try_wait`, and no core that is started while a `stop` waits. -/
def WakesFirst (s : Sys) (a : Action) : Prop := NoWaitError s a ∧ startsInStop s a = false

instance : ∀ s a, Decidable (WakesFirst s a) := fun _ _ => inferInstanceAs (Decidable (_ ∧ _))

/-! ## The latest generation -/

theorem ConnPc.inWait_of_call {pc : ConnPc} {r : HookReason} {g : Gen}
    (h : pc.call = .stopping r g) : pc = .stopWait r g := by
  cases pc <;> simp_all [call]

/-- No generation is made while a `stop` waits. -/
theorem WakesFirst.nGen {a : Action} (hp : WakesFirst s a) (hA : Accepted s) (h : Move env s a s') :
    s'.nGen = s.nGen ∨ ∀ c r g, s.lifeView.call c ≠ .stopping r g := by
  cases h with
  | conn h =>
    rcases h.core_cases with ⟨-, hn, -⟩ | ⟨hpc, -, pid, port, rfl, -, -⟩ | ⟨_, _, -, -, -, hn, -, -⟩
    · exact .inl hn
    · right
      intro c r g hc
      have hwait : (s.conns c).pc = .stopWait r g := ConnPc.inWait_of_call hc
      have hlt : c < s.nConns := by
        by_contra hle
        rw [hA.closed c (Nat.le_of_not_lt hle)] at hwait
        cases hwait
      have hnone := hp.2
      simp only [startsInStop, hpc, beq_self_eq_true, Bool.true_and, List.any_eq_false,
        List.mem_range, Bool.not_eq_true] at hnone
      have hc' := hnone c hlt
      rw [hwait] at hc'
      cases hc'
    · exact .inl hn
  | monitor h => exact .inl h.nGen_eq
  | other h => exact .inl h.nGen_eq

theorem atLatest_of_reachable (h : (supervisor env).ReachableBy WakesFirst s) :
    Lifecycle.AtLatest s.lifeView := by
  have hinit : Lifecycle.AtLatest (supervisor env).init.lifeView := by
    intro c r g hc
    have hidle : Lifecycle.Call.idle = .stopping r g := hc
    cases hidle
  refine h.invariant (I := fun s => Lifecycle.AtLatest s.lifeView) hinit
    fun {s a s'} hr hA hp hs => ?_
  rcases (lifecycle env).step hr.reachable hs with heq | ⟨b, -, hst⟩
  · have heq : s'.lifeView = s.lifeView := heq
    rw [heq]
    exact hA
  · have hn := hp.nGen (.of_reachable hr.reachable) (step_move hs).2
    exact hA.step (base_of_reachable hr.reachable) hn hst

/-! ## The property -/

/-- A turn of the wait loop that finds the core stopped is its last one. -/
theorem leaves_of_stopped {c : ConnId} {r : HookReason} {g : Gen} {ans : Answer}
    (hpc : (s.conns c).pc = .stopWait r g) (hcore : s.core = .stopped)
    (hs : step env s (.conn c ans) = some s') : (s'.conns c).pc = .stopHook r g := by
  simp only [step] at hs
  split at hs
  · cases hs
  · simp only [Sys.connStep, hpc] at hs
    obtain ⟨-, hs⟩ := lockSt_eq_some hs
    rw [hcore] at hs
    injection hs with hs
    rw [← hs]
    simp

/-- **Every `stop` waits for the generation that it has marked**, as long as no core is
started while a `stop` waits. -/
theorem stops_with_own (h : (supervisor env).ReachableBy WakesFirst s) : StopsWithOwn env s := by
  have hr := h.reachable
  have hR := reaped_of_reachable (h.mono fun _ _ hp => hp.1)
  have hO := Lifecycle.Outwaited.of_reachable ((lifecycle env).reachable hr)
  constructor
  · intro c r g hpc
    have hcall : s.lifeView.call c = .lowering r g := congrArg ConnPc.call hpc
    exact hR.settled g (hO c r g hcall).2
  · intro c r g hpc hg ans s' hs
    have hcall : s.lifeView.call c = .stopping r g := congrArg ConnPc.call hpc
    have hcore := (atLatest_of_reachable h).stopped (tracked_of_reachable hr) hcall hg
    exact leaves_of_stopped hpc hcore hs

namespace Client

/-- The owner stops its core and waits; the core dies, and the connection that has taken the
lease over starts another one before the owner's thread gets the lock. -/
def startInStop : List Action :=
  [boot, connect 0 helloText, own 0, start 0 7, stop 0, connect 1 takeoverText, takeOver 1,
    perish 0, start 1 8].flatten

/-- The owner stops its core and waits; the core dies. -/
def stopDies : List Action :=
  [boot, connect 0 helloText, own 0, start 0 7, stop 0, perish 0].flatten

end Client

/-- The owner's `stop` has marked generation 0, which has been reaped; its next turn waits on,
for generation 1. -/
theorem waits_for_later : ∃ s, (supervisor Client.env).ReachableBy NoWaitError s ∧ s.nGen = 2 ∧
    (s.children 0).life = .reaped ∧ ¬ StopsWithOwn Client.env s := by
  obtain ⟨s, hs, hp⟩ := exists_reachableBy Client.env NoWaitError Client.startInStop
    (fun s => decide (s.nGen = 2 ∧ (s.children 0).life = .reaped ∧
      (s.conns 0).pc = .stopWait .requested 0 ∧ (s.monitors 0).pc = .done ∧
      ((step Client.env s (.conn 0 .done)).map fun s => (s.conns 0).pc) =
        some (.stopWait .requested 0))) (by decide +kernel)
  obtain ⟨hgen, hlife, hpc, hmon, hstep⟩ := of_decide_eq_true hp
  refine ⟨s, hs, hgen, hlife, fun hown => ?_⟩
  obtain ⟨s', hs', hpc'⟩ := Option.map_eq_some_iff.mp hstep
  have hleft := hown.leaves 0 .requested 0 hpc (by rw [hmon]; trivial) .done s' hs'
  rw [hpc'] at hleft
  cases hleft

/-- The owner's `stop` waits, and its generation has been reaped. -/
theorem stops_with_own_dies : ∃ s, (supervisor Client.env).ReachableBy WakesFirst s ∧
    (s.conns 0).pc = .stopWait .requested 0 ∧ (s.monitors 0).pc = .done ∧
    StopsWithOwn Client.env s := by
  obtain ⟨s, hs, hp⟩ := exists_reachableBy Client.env WakesFirst Client.stopDies
    (fun s => decide ((s.conns 0).pc = .stopWait .requested 0 ∧ (s.monitors 0).pc = .done))
    (by decide +kernel)
  obtain ⟨hpc, hmon⟩ := of_decide_eq_true hp
  exact ⟨s, hs, hpc, hmon, stops_with_own hs⟩

end EasyTierMac.Supervisor
