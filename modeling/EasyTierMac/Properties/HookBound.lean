import EasyTierMac.Supervisor.RunChild

/-!
# A hook run is bounded and reaped

Once `run_child` has spawned the script, it polls it until it is dead or the deadline has
passed, and kills it at the first poll that finds it alive then. It does so if and only if
the deadline is an `Instant` (`bounded_iff`). `hook_timeout_secs` is not checked: a large one
makes `Instant::now() + timeout` panic, and the script is left behind
(`script_left_behind`).
-/

namespace EasyTierMac.Supervisor.RunChild

open Transition (System)

def isSigkill : Nat × Event → Bool
  | (_, .sigkill _) => true
  | _ => false

/-- A poll finds the script alive when its time is over: what is done next is the SIGKILL. -/
def KilledNext (r : Run) (after : List (Nat × Event)) : Prop :=
  (∃ t script rest, after = (t, .sigkill script) :: rest) ∨
    (after = [] ∧ ∃ deadline, r.pc = .checking deadline ∧ deadline ≤ r.now)

/-- A run that is bounded by its timeout so far. -/
structure Bounded (timeout : Nat) (r : Run) : Prop where
  no_panic : r.pc ≠ .finished .panicked
  /-- It returns with the script reaped, or never spawned. -/
  reaped : ∀ how, r.pc = .finished how → r.script.unreaped = false
  once : r.trace.countP isSigkill ≤ 1
  /-- It kills a script that is not reaped, whose time is over. -/
  kill : ∀ t script, (t, .sigkill script) ∈ r.trace → script.unreaped = true ∧
    ∃ spawned, (spawned, .spawn) ∈ r.trace ∧ spawned + timeout ≤ t
  prompt : ∀ before t after spawned, r.trace = before ++ (t, .poll) :: after →
    (spawned, .spawn) ∈ r.trace → spawned + timeout ≤ t → KilledNext r after

/-- The spawn time plus the timeout is an `Instant`. -/
def Representable (timeout : Nat) (r : Run) : Prop :=
  ∀ spawned, (spawned, .spawn) ∈ r.trace → spawned + timeout < secs (2 ^ 63)

/-! ## Traces -/

theorem mem_polled {spawned : Nat} {polls : List Nat} {e : Nat × Event} :
    e ∈ polled spawned polls ↔ e = (spawned, .spawn) ∨ ∃ t ∈ polls, e = (t, .poll) := by
  unfold polled
  rw [List.mem_cons, List.mem_map]
  simp only [eq_comm]

theorem countP_polled (spawned : Nat) (polls : List Nat) :
    (polled spawned polls).countP isSigkill = 0 := by
  rw [List.countP_eq_zero]
  intro e he
  rcases mem_polled.mp he with rfl | ⟨t, -, rfl⟩ <;> exact Bool.false_ne_true

/-- The script was spawned once. -/
theorem spawned_unique {spawned t : Nat} {polls : List Nat} {tail : List (Nat × Event)}
    (htail : ∀ e ∈ tail, e.2 ≠ .spawn) (h : (t, .spawn) ∈ polled spawned polls ++ tail) :
    t = spawned := by
  rcases List.mem_append.mp h with h | h
  · rcases mem_polled.mp h with h | ⟨t', -, h⟩
    · exact (Prod.mk.inj h).1
    · cases (Prod.mk.inj h).2
  · exact absurd rfl (htail _ h)

/-- A poll after the deadline is not one of the early ones. -/
theorem tail_of_due {timeout spawned t : Nat} {polls : List Nat}
    {tail before after : List (Nat × Event)} (hp : Polling timeout spawned polls)
    (hdue : spawned + timeout ≤ t)
    (h : polled spawned polls ++ tail = before ++ (t, .poll) :: after) :
    ∃ before', tail = before' ++ (t, .poll) :: after := by
  rcases List.append_eq_append_iff.mp h with ⟨as, -, htail⟩ | ⟨bs, hpolled, hbs⟩
  · exact ⟨as, htail⟩
  cases bs with
  | nil => exact ⟨[], hbs.symm⟩
  | cons e bs =>
    obtain ⟨rfl, -⟩ := List.cons.inj hbs
    have hmem : (t, Event.poll) ∈ polled spawned polls := by
      rw [hpolled]
      exact List.mem_append_right _ List.mem_cons_self
    rcases mem_polled.mp hmem with h' | ⟨t', ht', h'⟩
    · cases (Prod.mk.inj h').2
    · have hearly := hp.early t' ht'
      rw [← (Prod.mk.inj h').1] at hearly
      omega

/-! ## Every point of the loop -/

/-- While nothing was killed, the end of the trace has one more event at most. -/
theorem Bounded.of_quiet {timeout now spawned : Nat} {pc : Pc} {script : Script} {polls : List Nat}
    {tail : List (Nat × Event)} (hp : Polling timeout spawned polls)
    (hpanic : pc ≠ .finished .panicked)
    (hreaped : ∀ how, pc = .finished how → script.unreaped = false)
    (htail : ∀ e ∈ tail, e.2 ≠ .spawn ∧ isSigkill e = false)
    (hprompt : ∀ before t after, tail = before ++ (t, .poll) :: after →
      spawned + timeout ≤ t → KilledNext ⟨now, pc, script, polled spawned polls ++ tail⟩ after) :
    Bounded timeout ⟨now, pc, script, polled spawned polls ++ tail⟩ where
  no_panic := hpanic
  reaped := hreaped
  once := by
    have hzero : tail.countP isSigkill = 0 := by
      rw [List.countP_eq_zero]
      intro e he
      rw [(htail e he).2]
      exact Bool.false_ne_true
    show (polled spawned polls ++ tail).countP isSigkill ≤ 1
    rw [List.countP_append, countP_polled, hzero]
    exact Nat.zero_le 1
  kill t script' h := by
    rcases List.mem_append.mp h with h | h
    · rcases mem_polled.mp h with h | ⟨t', -, h⟩ <;> cases (Prod.mk.inj h).2
    · cases (htail _ h).2
  prompt before t after spawned' h hspawn hdue := by
    have he : spawned' = spawned := spawned_unique (fun e he => (htail e he).1) hspawn
    rw [he] at hdue
    obtain ⟨before', htail'⟩ := tail_of_due hp hdue h
    exact hprompt before' t after htail' hdue

/-- After the SIGKILL, which came right after a poll. -/
theorem Bounded.of_killed {timeout now spawned t t' : Nat} {pc : Pc} {script script' : Script}
    {polls : List Nat} {rest : List (Nat × Event)} (hp : Polling timeout spawned polls)
    (hpanic : pc ≠ .finished .panicked)
    (hreaped : ∀ how, pc = .finished how → script.unreaped = false)
    (hs' : script'.unreaped = true) (hdue : spawned + timeout ≤ t')
    (hrest : ∀ e ∈ rest, e.2 = .reap) :
    Bounded timeout ⟨now, pc, script,
      polled spawned polls ++ (t, .poll) :: (t', .sigkill script') :: rest⟩ where
  no_panic := hpanic
  reaped := hreaped
  once := by
    have hzero : rest.countP isSigkill = 0 := by
      rw [List.countP_eq_zero]
      rintro ⟨u, e⟩ he
      have hreap : e = .reap := hrest _ he
      rw [hreap]
      exact Bool.false_ne_true
    show (polled spawned polls ++ _).countP isSigkill ≤ 1
    rw [List.countP_append, countP_polled, List.countP_cons_of_neg Bool.false_ne_true,
      List.countP_cons_of_pos rfl, hzero]
  kill u script'' h := by
    rcases List.mem_append.mp h with h' | h'
    · rcases mem_polled.mp h' with h' | ⟨v, -, h'⟩ <;> cases (Prod.mk.inj h').2
    rcases List.mem_cons.mp h' with h' | h'
    · cases (Prod.mk.inj h').2
    rcases List.mem_cons.mp h' with h' | h'
    · cases h'
      exact ⟨hs', spawned, List.mem_append_left _ (mem_polled.mpr (.inl rfl)), hdue⟩
    · cases hrest _ h'
  prompt before u after spawned' h hspawn hdue' := by
    have he : spawned' = spawned := by
      refine spawned_unique (fun e he => ?_) hspawn
      rcases List.mem_cons.mp he with rfl | he
      · intro h
        cases h
      rcases List.mem_cons.mp he with rfl | he
      · intro h
        cases h
      · rw [hrest e he]
        intro h
        cases h
    rw [he] at hdue'
    obtain ⟨before', htail⟩ := tail_of_due hp hdue' h
    cases before' with
    | nil =>
      cases htail
      exact .inl ⟨t', script', rest, rfl⟩
    | cons e before' =>
      -- the other events are no polls
      obtain ⟨-, htail⟩ := List.cons.inj htail
      have hmem : (u, Event.poll) ∈ (t', .sigkill script') :: rest := by
        rw [htail]
        exact List.mem_append_right _ List.mem_cons_self
      rcases List.mem_cons.mp hmem with h' | h'
      · cases (Prod.mk.inj h').2
      · cases hrest _ h'

theorem Course.bounded {timeout : Nat} {r : Run} (h : Course timeout r)
    (hrep : Representable timeout r) : Bounded timeout r := by
  have hnil : ∀ (now : Nat) (pc : Pc), (∀ how, pc = .finished how → how ≠ .panicked) →
      Bounded timeout ⟨now, pc, .absent, []⟩ := by
    intro now pc hpc
    refine ⟨fun hp => hpc _ hp rfl, fun _ _ => rfl, Nat.zero_le 1, ?_, ?_⟩
    · intro t script ht
      cases ht
    · intro before t after spawned hnil
      cases before <;> cases hnil
  cases h with
  | opening => exact hnil _ _ fun how hh => by cases hh
  | spawning => exact hnil _ _ fun how hh => by cases hh
  | notLaunched =>
    refine hnil _ _ fun how hh => ?_
    cases hh
    intro hp
    cases hp
  -- excluded: the deadline is representable
  | panicked hs hover => exact absurd (hrep _ List.mem_cons_self) hover
  | @polling now spawned polls script hp hs =>
    have hb : Bounded timeout
        ⟨now, .polling (spawned + timeout), script, polled spawned polls ++ []⟩ :=
      .of_quiet hp (fun h => by cases h) (fun _ h => by cases h)
        (fun e he => absurd he List.not_mem_nil) (fun before _ _ h => by cases before <;> cases h)
    rwa [List.append_nil] at hb
  | @sleeping now spawned wake polls script hp hs =>
    have hb : Bounded timeout
        ⟨now, .sleeping (spawned + timeout) wake, script, polled spawned polls ++ []⟩ :=
      .of_quiet hp (fun h => by cases h) (fun _ h => by cases h)
        (fun e he => absurd he List.not_mem_nil) (fun before _ _ h => by cases before <;> cases h)
    rwa [List.append_nil] at hb
  | @checking now spawned t polls script hp hs ht =>
    refine .of_quiet hp (fun h => by cases h) (fun _ h => by cases h) ?_ ?_
    · intro e he
      rw [List.mem_singleton.mp he]
      exact ⟨fun h => (by cases h), rfl⟩
    -- the poll that is due can only be the last one
    · intro before u after htail hdue
      obtain ⟨hafter, hu⟩ : after = [] ∧ u = t := by
        cases before with
        | nil =>
          cases htail
          exact ⟨rfl, rfl⟩
        | cons e before => cases before <;> cases htail
      rw [hu] at hdue
      exact .inr ⟨hafter, _, rfl, Nat.le_trans hdue ht⟩
  | waiting hp hs hs' hdue ht' =>
    exact .of_killed hp (fun h => by cases h) (fun _ h => by cases h) hs' hdue
      (fun e he => absurd he List.not_mem_nil)
  | exited hp =>
    refine .of_quiet hp (fun h => by cases h) (fun _ _ => rfl) ?_ ?_
    · intro e he
      rw [List.mem_singleton.mp he]
      exact ⟨fun h => (by cases h), rfl⟩
    · intro before u after htail _
      cases before with
      | nil => cases htail
      | cons e before => cases before <;> cases htail
  | timedOut hp hs' hdue =>
    refine .of_killed hp (fun h => by cases h) (fun _ _ => rfl) hs' hdue ?_
    intro e he
    rw [List.mem_singleton.mp he]

/-- A thread that has spawned its script with a deadline that is no `Instant` has panicked. -/
theorem Course.representable {timeout : Nat} {r : Run} (h : Course timeout r)
    (hpanic : r.pc ≠ .finished .panicked) : Representable timeout r := by
  intro spawned hspawn
  have hof : ∀ {t : Nat} {polls : List Nat} {tail : List (Nat × Event)},
      Polling timeout t polls → (∀ e ∈ tail, e.2 ≠ .spawn) →
        (spawned, .spawn) ∈ polled t polls ++ tail → spawned + timeout < secs (2 ^ 63) := by
    intro t polls tail hp htail hmem
    rw [spawned_unique htail hmem]
    exact hp.representable
  cases h with
  | opening | spawning | notLaunched => cases hspawn
  | panicked => exact absurd rfl hpanic
  | polling hp hs | sleeping hp hs =>
    rw [← List.append_nil (polled _ _)] at hspawn
    exact hof hp (fun e he => absurd he List.not_mem_nil) hspawn
  | checking hp | waiting hp | exited hp | timedOut hp =>
    refine hof hp (fun e he => ?_) hspawn
    simp only [List.mem_cons, List.not_mem_nil, or_false] at he
    rcases he with rfl | rfl | rfl <;> (intro h; cases h)

/-- **Bounded and reaped.** For every configuration, clock and script: a run of the hook
thread is bounded by its timeout if and only if the spawn time plus the timeout is an
`Instant`. -/
theorem bounded_iff (config : Config) (now : Nat) {r : Run}
    (h : (system config.hookTimeout now).ReachableBy Waits r) :
    Bounded config.hookTimeout r ↔ Representable config.hookTimeout r :=
  ⟨fun hb => (reachable_course h).representable hb.no_panic, (reachable_course h).bounded⟩

/-- A script that outlives the default timeout: it is polled twice, killed and reaped. -/
theorem bounded_iff_killed :
    ∃ r, (system (Config.mk [] none).hookTimeout 0).ReachableBy Waits r ∧
      r.pc = .finished .timedOut ∧
      (Bounded (Config.mk [] none).hookTimeout r ↔ Representable (Config.mk [] none).hookTimeout r) := by
  obtain ⟨r, hr, hpc⟩ : ∃ r, (system (Config.mk [] none).hookTimeout 0).ReachableBy Waits r ∧
      decide (r.pc = .finished .timedOut) = true :=
    System.exists_reachableBy_of_runBy (l := [.thread true, .thread true, .thread true,
      .thread true, .tick (secs 31), .thread true, .thread true, .thread true, .die, .thread true])
      (by decide +kernel)
  exact ⟨r, hr, of_decide_eq_true hpc, bounded_iff (Config.mk [] none) 0 hr⟩

/-- A timeout of the largest integer that TOML has, five seconds after the clock's start. -/
theorem script_left_behind :
    ¬∀ (config : Config) (now : Nat) (r : Run),
      (system config.hookTimeout now).ReachableBy Waits r → Bounded config.hookTimeout r := by
  intro h
  obtain ⟨r, hr, hpc⟩ :
      ∃ r, (system (Config.mk [] (some 9223372036854775807)).hookTimeout (secs 5)).ReachableBy
        Waits r ∧ decide (r.pc = .finished .panicked ∧ r.script = .alive) = true :=
    System.exists_reachableBy_of_runBy (l := [.thread true, .thread true]) (by decide +kernel)
  exact (h _ _ r hr).no_panic (of_decide_eq_true hpc).1

end EasyTierMac.Supervisor.RunChild
