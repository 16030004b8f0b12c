import EasyTierMac.Supervisor.Streams

/-!
# What a connection knows of the core

A peer learns that a generation is running from a line of its own connection's
thread, and that thread has it from the core state it asked for. So a connection
comes to know only in a step of its own (`Move.knows_cases`), knows nothing before
it is granted the lease (`Unaware`), and what it was told stays told (`Told`).
-/

namespace EasyTierMac.Supervisor

variable {env : Env} {s s' : Sys}

/-! ## What a connection knows -/

/-- The thread is about to tell its peer that generation `g` is running. -/
def ConnPc.tells (g : Gen) : ConnPc → Bool
  | .helloWrite l | .reply l => l.about == some (.running g)
  | .spawnMonitor k | .upHook k => k == g
  | _ => false

/-- The peer was told that generation `g` is running, or is about to be. -/
def Conn.knows (k : Conn) (g : Gen) : Bool :=
  k.out.any (fun l => l.about == some (.running g)) || k.pc.tells g

/-- About to read the core state and tell it. -/
def ConnPc.asks : ConnPc → Bool
  | .helloSnap | .statusSnap | .startLock => true
  | _ => false

/-- No hello was accepted yet, or the lease was not granted yet. -/
def ConnPc.early : ConnPc → Bool
  | .auth | .readHello | .refuse _ | .lease _ => true
  | _ => false

/-! ## How a connection comes to know -/

/-- Only the thread of a connection tells its peer that a core is running. -/
theorem Writes.about_running {d : ConnId} {a : Action} {l : Line} (h : Writes s d a l) {g : Gen}
    (hl : l.about = some (.running g)) :
    (∃ ans, a = .conn d ans) ∧ (s.conns d).pc.tells g = true := by
  cases h with
  | refuse => cases hl
  | @hello ans _ hpc | @reply ans _ hpc => exact ⟨⟨ans, rfl⟩, by simp [hpc, ConnPc.tells, hl]⟩
  | kicked => cases hl
  | coreExited => cases hl

/-- With the core stopped, the current report is not "running". -/
theorem Sys.report_stopped (hcore : s.core = .stopped) {g : Gen} :
    s.report ≠ some (.running g) := by
  unfold Sys.report
  rw [hcore]
  cases s.nGen <;> simp

/-- A thread comes to tell that a core runs by asking for the core state. -/
theorem ConnMove.tells_cases {d : ConnId} {ans : Answer} (h : ConnMove env s d ans s') {g : Gen}
    (ht : (s'.conns d).pc.tells g = true) :
    (s.conns d).pc.tells g = true ∨ (s.conns d).pc.asks = true := by
  cases h with
  | sweep hpc hsw | swept hpc hsw =>
    obtain ⟨hooks, n, calls, rfl⟩ := sweepStep_eq hsw
    simp [ConnPc.tells] at ht
  | helloSnap _ hpc | startRunning _ hpc | statusSnap _ hpc | spawn _ hpc =>
    exact .inr (by rw [hpc]; rfl)
  | @stopIdle _ r _ hpc hcore =>
    have hne := s.report_stopped hcore (g := g)
    cases r <;> simp_all [Sys.afterStopPc, ConnPc.tells]
  | @stopHook _ r => cases r <;> simp [Sys.afterStopPc, ConnPc.tells] at ht
  | spawnMonitor hpc | upHook hpc =>
    refine .inl ?_
    rw [hpc]
    simpa [ConnPc.tells] using ht
  | refill hpc => rcases hpc with hpc | hpc <;> simp [hpc, ConnPc.tells] at ht
  | _ => simp_all [ConnPc.tells]

theorem Conn.knows_of_tells {k : Conn} {g : Gen} (h : k.pc.tells g = true) : k.knows g = true := by
  unfold Conn.knows
  rw [h, Bool.or_true]

/-- **How a connection comes to know** that a core runs: its thread asks. -/
theorem Move.knows_cases {a : Action} (h : Move env s a s') {d : ConnId} {g : Gen}
    (hk : (s'.conns d).knows g = true) : (s.conns d).knows g = true ∨
      (∃ ans, a = .conn d ans) ∧ (s.conns d).pc.asks = true := by
  rcases Bool.or_eq_true_iff.mp hk with hout | ht
  · -- it was told already, or its thread tells it now
    obtain ⟨l, hl, hab⟩ := List.any_eq_true.mp hout
    have hab : l.about = some (.running g) := beq_iff_eq.mp hab
    refine .inl ?_
    rcases h.out_cases d with he | ⟨x, hw, he⟩ | ⟨-, uid, he⟩
    · rw [he] at hl
      exact Bool.or_eq_true_iff.mpr (.inl (List.any_eq_true.mpr ⟨l, hl, beq_iff_eq.mpr hab⟩))
    · rw [he] at hl
      rcases List.mem_append.mp hl with hl | hl
      · exact Bool.or_eq_true_iff.mpr (.inl (List.any_eq_true.mpr ⟨l, hl, beq_iff_eq.mpr hab⟩))
      · rw [List.mem_singleton.mp hl] at hab
        exact Conn.knows_of_tells (hw.about_running hab).2
    · rw [he] at hl
      cases hl
  · revert ht
    refine h.forall_pc (Q := fun d pc => pc.tells g = true → (s.conns d).knows g = true ∨
      (∃ ans, a = .conn d ans) ∧ (s.conns d).pc.asks = true) ?_ ?_ ?_ d
    · intro ht
      cases ht
    · rintro c ans hm rfl ht
      rcases hm.tells_cases ht with ht | hasks
      · exact .inl (Conn.knows_of_tells ht)
      · exact .inr ⟨⟨ans, rfl⟩, hasks⟩
    · exact fun c ht => .inl (Conn.knows_of_tells ht)

/-! ## Before the lease nothing is known -/

/-- A connection without the lease has not been told of any core. -/
def Unaware (s : Sys) : Prop := ∀ c, (s.conns c).pc.early = true → ∀ g, (s.conns c).knows g = false

theorem ConnMove.early_of {c : ConnId} {ans : Answer} (h : ConnMove env s c ans s')
    (he : (s'.conns c).pc.early = true) : (s.conns c).pc.early = true := by
  cases h with
  | sweep hpc hsw | swept hpc hsw =>
    obtain ⟨hooks, n, calls, rfl⟩ := sweepStep_eq hsw
    simp [ConnPc.early] at he
  | @stopIdle _ r | @stopHook _ r => cases r <;> simp [Sys.afterStopPc, ConnPc.early] at he
  | refill hpc => rcases hpc with hpc | hpc <;> simp_all [ConnPc.early]
  | _ => simp_all [ConnPc.early]

theorem ConnPc.asks_of_early {pc : ConnPc} (h : pc.early = true) : pc.asks = false := by
  cases pc <;> simp_all [early, asks]

/-- A thread that was there before the step and has not asked knows what it knew. -/
theorem Unaware.of_early (hU : Unaware s) {a : Action} (h : Move env s a s') {c : ConnId}
    (hearly : (s.conns c).pc.early = true) (g : Gen) : (s'.conns c).knows g = false := by
  by_contra hk
  rw [Bool.not_eq_false] at hk
  rcases h.knows_cases hk with hk | ⟨-, hasks⟩
  · rw [hU c hearly g] at hk
    cases hk
  · rw [ConnPc.asks_of_early hearly] at hasks
    cases hasks

theorem Unaware.step (hU : Unaware s) {a : Action} (h : Move env s a s') : Unaware s' := by
  intro c hearly g
  cases h with
  | @conn d ans _ h =>
    refine hU.of_early (.conn h) ?_ g
    by_cases hcd : c = d
    · subst hcd
      exact h.early_of hearly
    · rw [(h.of_ne hcd).1] at hearly
      exact hearly
  | monitor h =>
    refine hU.of_early (.monitor h) ?_ g
    obtain ⟨out, he⟩ := h.conns_eq c
    rw [he] at hearly
    exact hearly
  | other h =>
    rcases h.conns_eq with ⟨uid, hc, -⟩ | ⟨-, hc⟩
    · by_cases hd : c = s.nConns
      · rw [hc, hd, Function.update_self]
        rfl
      · refine hU.of_early (.other h) ?_ g
        rw [hc, Function.update_of_ne hd] at hearly
        exact hearly
    · refine hU.of_early (.other h) ?_ g
      obtain ⟨sock, closed, he⟩ := hc c
      rw [he] at hearly
      exact hearly

theorem unaware_of_reachable (h : (supervisor env).Reachable s) : Unaware s :=
  h.invariant (fun _ he => nomatch he) fun _ hU _ hs => hU.step (step_move hs).2

/-! ## What was told stays told -/

/-- What stays true of a connection that was told that generation `n` runs. -/
structure Told (s : Sys) (c : ConnId) (n : Gen) (k : Nat) : Prop where
  accepted : c < s.nConns
  told : ∃ l ∈ (s.conns c).out, l.about = some (.running n)
  len : k ≤ (s.conns c).out.length

theorem Told.step {c : ConnId} {n : Gen} {k : Nat} (hT : Told s c n k) {a : Action}
    (h : Move env s a s') : Told s' c n k := by
  have hne : c ≠ s.nConns := Nat.ne_of_lt hT.accepted
  obtain ⟨l, hl, hab⟩ := hT.told
  refine ⟨Nat.lt_of_lt_of_le hT.accepted h.nConns_le, ⟨l, h.mem_out hne hl, hab⟩, ?_⟩
  rcases h.out_cases c with he | ⟨x, -, he⟩ | ⟨he, -⟩
  · rw [he]
    exact hT.len
  · rw [he, List.length_append]
    exact Nat.le_add_right_of_le hT.len
  · exact absurd he hne

theorem Told.knows {c : ConnId} {n : Gen} {k : Nat} (hT : Told s c n k) :
    (s.conns c).knows n = true := by
  obtain ⟨l, hl, hab⟩ := hT.told
  exact Bool.or_eq_true_iff.mpr (.inl (List.any_eq_true.mpr ⟨l, hl, beq_iff_eq.mpr hab⟩))

end EasyTierMac.Supervisor
