import Mathlib.Data.List.Nodup
import EasyTierMac.Supervisor.ProcessTable
import EasyTierMac.Supervisor.Runs

/-!
# Which processes the janitor kills

`ps` joins the arguments of a process by blanks, so `sweep_orphans` cannot see where
`argv[0]` ends. `Shows` says which command lines pass its test: those that show the core
path, after white space, up to their end, a carriage return at their end, or a blank. A core
path that has blanks in it can be shown by a process whose `argv[0]` is another one.

The janitor kills the orphans of a process table and nothing else exactly where the table is
`Tellable` (`janitorExact_iff`). What it counts, and whether it fires its hook, is right in
every sweep (`Sweeping.counted`).
-/

namespace EasyTierMac.Supervisor

open Rust

/-! ## Command lines -/

/-- The command line `a` shows the core path `cp` as the janitor looks for it. -/
def Shows (cp a : Text) : Prop :=
  (∀ c ∈ cp.head?, isWhitespace c = false) ∧
    ∃ w t, (∀ c ∈ w, isWhitespace c = true) ∧ a = w ++ (cp ++ t) ∧
      ((t = [] ∧ cp.getLast? ≠ some '\r') ∨ t = ['\r'] ∨ (cp ≠ [] ∧ ∃ u, t = ' ' :: u))

theorem argv0Matches_iff {args cp : Text} :
    argv0Matches args cp = true ↔ args = cp ∨ ∃ u, args = cp ++ ' ' :: u := by
  unfold argv0Matches
  rw [Bool.or_eq_true, beq_iff_eq, List.isPrefixOf_iff_prefix]
  constructor
  · rintro (h | ⟨u, h⟩)
    · exact .inl h
    · refine .inr ⟨u, ?_⟩
      rw [← h, List.append_assoc, List.singleton_append]
  · rintro (h | ⟨u, h⟩)
    · exact .inl h
    · refine .inr ⟨u, ?_⟩
      rw [h, List.append_assoc, List.singleton_append]

theorem shows_of_matches {cp a : Text} (h : argv0Matches (trimStart (stripCr a)) cp = true) :
    Shows cp a := by
  obtain ⟨w, hw, hstrip, hhead⟩ := eq_append_trimStart (stripCr a)
  rcases argv0Matches_iff.mp h with hargs | ⟨u, hargs⟩
  · rw [hargs] at hstrip hhead
    refine ⟨hhead, ?_⟩
    rcases stripCr_cases a with ⟨hsame, hlast⟩ | hcr
    · refine ⟨w, [], hw, ?_, .inl ⟨rfl, ?_⟩⟩
      · rw [← hsame, hstrip, List.append_nil]
      · intro hcp
        have hne : cp ≠ [] := by
          rintro rfl
          cases hcp
        apply hlast
        rw [← hsame, hstrip, List.getLast?_append_of_ne_nil w hne, hcp]
    · refine ⟨w, ['\r'], hw, ?_, .inr (.inl rfl)⟩
      rw [hcr, hstrip, List.append_assoc]
  · rw [hargs] at hstrip hhead
    have hne : cp ≠ [] := by
      rintro rfl
      have hblank := hhead ' ' rfl
      cases hblank
    refine ⟨?_, ?_⟩
    · rw [List.head?_append_of_ne_nil _ hne] at hhead
      exact hhead
    rcases stripCr_cases a with ⟨hsame, -⟩ | hcr
    · refine ⟨w, ' ' :: u, hw, ?_, .inr (.inr ⟨hne, u, rfl⟩)⟩
      rw [← hsame, hstrip]
    · refine ⟨w, ' ' :: (u ++ ['\r']), hw, ?_, .inr (.inr ⟨hne, _, rfl⟩)⟩
      rw [hcr, hstrip]
      simp only [List.append_assoc, List.cons_append]

theorem matches_of_shows {cp a : Text} (h : Shows cp a) :
    argv0Matches (trimStart (stripCr a)) cp = true := by
  obtain ⟨hhead, w, t, hw, rfl, ht⟩ := h
  apply argv0Matches_iff.mpr
  rcases ht with ⟨rfl, hlast⟩ | rfl | ⟨hne, u, rfl⟩
  · rw [List.append_nil]
    by_cases hne : cp = []
    · -- nothing but white space
      rw [hne, List.append_nil]
      have hall : ∀ c ∈ stripCr w, isWhitespace c = true := by
        intro c hc
        apply hw c
        unfold stripCr at hc
        split at hc
        · exact List.dropLast_subset w hc
        · exact hc
      have htrim := trimStart_append hall []
      rw [List.append_nil] at htrim
      exact .inl htrim
    · have hcp : stripCr cp = cp := by
        unfold stripCr
        rw [if_neg hlast]
      rw [stripCr_append hne, hcp, trimStart_append hw, trimStart_of_head hhead]
      exact .inl rfl
  · rw [← List.append_assoc, stripCr_concat, trimStart_append hw, trimStart_of_head hhead]
    exact .inl rfl
  · rw [← List.append_assoc, stripCr_append (List.cons_ne_nil _ _), stripCr_cons (by decide),
      List.append_assoc, trimStart_append hw, trimStart_of_head]
    · exact .inr ⟨_, rfl⟩
    · rw [List.head?_append_of_ne_nil _ hne]
      exact hhead

/-! ## The loop -/

/-- What the loop makes of the line of a process. -/
theorem orphanPid_row (corePath : Text) (selfPid : Int32) (excludePid : Option Int32)
    (p : Process) :
    orphanPid corePath selfPid excludePid (stripCr p.row)
      = if p.pid == selfPid || some p.pid == excludePid then none
        else if argv0Matches (trimStart (stripCr p.commandLine)) corePath then some p.pid
        else none := by
  unfold orphanPid
  rw [stripCr_row, splitBlank_pid]
  dsimp only
  rw [parseI32_toString, Option.getD_some]

theorem orphanPids_psText (corePath : Text) (selfPid : Int32) (excludePid : Option Int32)
    (table : List Process) :
    orphanPids corePath selfPid excludePid (psText table)
      = table.filterMap fun p => orphanPid corePath selfPid excludePid (stripCr p.row) := by
  unfold orphanPids
  rw [lines_psText, List.filterMap_map]
  rfl

/-- **Who is killed**: the processes that are not excluded and show the core path. -/
theorem mem_orphanPids {corePath : Text} {selfPid : Int32} {excludePid : Option Int32}
    {table : List Process} {pid : Int32} :
    pid ∈ orphanPids corePath selfPid excludePid (psText table) ↔
      pid ≠ selfPid ∧ some pid ≠ excludePid ∧
        ∃ p ∈ table, p.pid = pid ∧ Shows corePath p.commandLine := by
  rw [orphanPids_psText, List.mem_filterMap]
  constructor
  · rintro ⟨p, hp, hpid⟩
    rw [orphanPid_row] at hpid
    split at hpid
    · cases hpid
    · next hkeep =>
      split at hpid
      · next hmatch =>
        cases hpid
        rw [Bool.or_eq_true, beq_iff_eq, beq_iff_eq, not_or] at hkeep
        exact ⟨hkeep.1, hkeep.2, p, hp, rfl, shows_of_matches hmatch⟩
      · cases hpid
  · rintro ⟨hself, hexclude, p, hp, rfl, hshows⟩
    refine ⟨p, hp, ?_⟩
    have hkeep : ¬(p.pid == selfPid || some p.pid == excludePid) = true := by
      rw [Bool.or_eq_true, beq_iff_eq, beq_iff_eq, not_or]
      exact ⟨hself, hexclude⟩
    rw [orphanPid_row, if_neg hkeep, if_pos (matches_of_shows hshows)]

/-- No orphan is missed: a process with the core path as its `argv[0]` shows it, unless the
path is empty, starts with white space or ends in a carriage return. -/
theorem shows_of_argv0 {p : Process} {corePath : Text} (hargv : p.argv0 = corePath)
    (hne : corePath ≠ []) (hhead : ∀ c ∈ corePath.head?, isWhitespace c = false)
    (hlast : corePath.getLast? ≠ some '\r') : Shows corePath p.commandLine := by
  refine ⟨hhead, [], p.args.flatMap (' ' :: ·), fun c hc => absurd hc List.not_mem_nil, ?_, ?_⟩
  · rw [← hargv]
    rfl
  · cases p.args with
    | nil => exact .inl ⟨rfl, hlast⟩
    | cons a as => exact .inr (.inr ⟨hne, a ++ as.flatMap (' ' :: ·), rfl⟩)

/-! ## A sweep -/

/-- A sweep that has the pids to kill: its calls of `kill` and what they returned, the count
that it returns, and the hooks that it fires. Other threads go on between its calls. -/
inductive Sweeping (env : Env) : Sweep → List (Int32 × Bool) → Nat → List HookCall → Prop
  | kill {s s' : Sys} {pid : Int32} {todo : List Int32} {killed : Nat} {ok : Bool} {sw : Sweep}
      {kills : List (Int32 × Bool)} {count : Nat} {hooks : List HookCall}
      (h : sweepStep env s (.kill (pid :: todo) killed) (.killed ok) = some (s', some sw))
      (rest : Sweeping env sw kills count hooks) :
      Sweeping env (.kill (pid :: todo) killed) ((pid, ok) :: kills) count hooks
  | ret {s s' : Sys} {killed : Nat} {ans : Answer} {hooks : List HookCall}
      (h : sweepStep env s (.kill [] killed) ans = some (s', none))
      (hhooks : s'.hookCalls = s.hookCalls ++ hooks) : Sweeping env (.kill [] killed) [] killed hooks

/-- The down (janitor) hook, once, if something was killed. -/
def janitorHooks (count : Nat) : List HookCall :=
  if 0 < count then [⟨.down, some .janitor, none⟩] else []

theorem hookCalls_runHook (env : Env) (s : Sys) (call : HookCall) (joiner : Option ConnId)
    (st : Stat) : (s.runHook env call joiner st).hookCalls = s.hookCalls ++ [call] := by
  unfold Sys.runHook
  dsimp only
  split <;> rfl

/-- The end of a sweep: the hook is fired if and only if something was killed. -/
theorem ret_hooks {env : Env} {s s' : Sys} {killed : Nat} {ans : Answer} {hooks : List HookCall}
    (h : sweepStep env s (.kill [] killed) ans = some (s', none))
    (hhooks : s'.hookCalls = s.hookCalls ++ hooks) : hooks = janitorHooks killed := by
  cases killed with
  | zero =>
    cases ans with
    | done =>
      cases h
      exact List.append_cancel_left (hhooks.symm.trans (List.append_nil _).symm)
    | _ => cases h
  | succ killed =>
    cases ans with
    | stat st =>
      cases h
      rw [hookCalls_runHook] at hhooks
      rw [← List.append_cancel_left hhooks]
      rfl
    | _ => cases h

/-- A sweep passes every pid to `kill`, and counts the calls that succeeded. -/
theorem Sweeping.counted {env : Env} {todo : List Int32} {killed : Nat}
    {kills : List (Int32 × Bool)} {count : Nat} {hooks : List HookCall}
    (h : Sweeping env (.kill todo killed) kills count hooks) :
    kills.map Prod.fst = todo ∧ count = killed + kills.countP Prod.snd ∧
      hooks = janitorHooks count := by
  generalize hsw : Sweep.kill todo killed = sw at h
  induction h generalizing todo killed with
  | @kill s s' pid todo' killed' ok sw kills count hooks hstep rest ih =>
    cases hsw
    have hnext : Sweep.kill todo' (if ok then killed' + 1 else killed') = sw := by
      unfold sweepStep at hstep
      dsimp only at hstep
      split at hstep
      · cases hstep
      · cases hstep
        rfl
    obtain ⟨hpids, hcount, hhooks⟩ := ih hnext
    refine ⟨by rw [List.map_cons, hpids], ?_, hhooks⟩
    rw [hcount]
    cases ok with
    | false => rw [List.countP_cons_of_neg (by simp), if_neg (by simp)]
    | true =>
      rw [List.countP_cons_of_pos rfl, if_pos rfl]
      omega
  | ret hstep hhooks =>
    cases hsw
    exact ⟨rfl, rfl, ret_hooks hstep hhooks⟩

/-! ## The orphans of a table -/

/-- The sweep kills exactly the processes whose `argv[0]` is the core path, but for the
supervisor itself and the excluded one; it returns how many it killed, and fires the down
(janitor) hook if that is at least one. -/
structure JanitorExact (env : Env) (excludePid : Option Int32) (table : List Process) : Prop where
  pids : ∀ pid, pid ∈ orphanPids env.config.corePath env.selfPid excludePid (psText table) ↔
    ∃ p ∈ table, p.pid = pid ∧ p.argv0 = env.config.corePath ∧ pid ≠ env.selfPid ∧
      some pid ≠ excludePid
  sweep : ∀ kills count hooks,
    Sweeping env
        (.kill (orphanPids env.config.corePath env.selfPid excludePid (psText table)) 0)
        kills count hooks →
      kills.map Prod.fst = orphanPids env.config.corePath env.selfPid excludePid (psText table) ∧
        count = kills.countP Prod.snd ∧ hooks = janitorHooks count

/-- Of the processes with a pid that may be killed, one shows the core path if and only if
one has it as its `argv[0]`. Where the pids of the table are distinct, this speaks of single
processes (`tellable_of_nodup`). -/
def Tellable (corePath : Text) (selfPid : Int32) (excludePid : Option Int32)
    (table : List Process) : Prop :=
  ∀ pid, pid ≠ selfPid → some pid ≠ excludePid →
    ((∃ p ∈ table, p.pid = pid ∧ Shows corePath p.commandLine) ↔
      ∃ p ∈ table, p.pid = pid ∧ p.argv0 = corePath)

/-- **The janitor.** It kills exactly the orphans of a process table if and only if their
command lines tell them from the other processes of the table. -/
theorem janitorExact_iff (env : Env) (excludePid : Option Int32) (table : List Process) :
    JanitorExact env excludePid table ↔
      Tellable env.config.corePath env.selfPid excludePid table := by
  constructor
  · intro h pid hself hexclude
    have hpid := h.pids pid
    rw [mem_orphanPids] at hpid
    constructor
    · intro hshows
      obtain ⟨p, hp, hpp, hargv, -⟩ := hpid.mp ⟨hself, hexclude, hshows⟩
      exact ⟨p, hp, hpp, hargv⟩
    · rintro ⟨p, hp, hpp, hargv⟩
      exact (hpid.mpr ⟨p, hp, hpp, hargv, hself, hexclude⟩).2.2
  · intro h
    refine ⟨fun pid => ?_, fun kills count hooks hsweep => ?_⟩
    · rw [mem_orphanPids]
      constructor
      · rintro ⟨hself, hexclude, hshows⟩
        obtain ⟨p, hp, hpp, hargv⟩ := (h pid hself hexclude).mp hshows
        exact ⟨p, hp, hpp, hargv, hself, hexclude⟩
      · rintro ⟨p, hp, hpp, hargv, hself, hexclude⟩
        exact ⟨hself, hexclude, (h pid hself hexclude).mpr ⟨p, hp, hpp, hargv⟩⟩
    · obtain ⟨hpids, hcount, hhooks⟩ := hsweep.counted
      rw [Nat.zero_add] at hcount
      exact ⟨hpids, hcount, hhooks⟩

/-- In a table of distinct pids the condition is about each process. -/
theorem tellable_of_nodup {corePath : Text} {selfPid : Int32} {excludePid : Option Int32}
    {table : List Process} (hnodup : (table.map Process.pid).Nodup) :
    Tellable corePath selfPid excludePid table ↔
      ∀ p ∈ table, p.pid ≠ selfPid → some p.pid ≠ excludePid →
        (Shows corePath p.commandLine ↔ p.argv0 = corePath) := by
  have huniq : ∀ p ∈ table, ∀ q ∈ table, q.pid = p.pid → q = p := fun p hp q hq heq =>
    List.inj_on_of_nodup_map hnodup hq hp heq
  constructor
  · intro h p hp hself hexclude
    have hpid := h p.pid hself hexclude
    constructor
    · intro hshows
      obtain ⟨q, hq, hqp, hargv⟩ := hpid.mp ⟨p, hp, rfl, hshows⟩
      rwa [huniq p hp q hq hqp] at hargv
    · intro hargv
      obtain ⟨q, hq, hqp, hshows⟩ := hpid.mpr ⟨p, hp, rfl, hargv⟩
      rwa [huniq p hp q hq hqp] at hshows
  · intro h pid hself hexclude
    constructor
    · rintro ⟨p, hp, rfl, hshows⟩
      exact ⟨p, hp, rfl, (h p hp hself hexclude).mp hshows⟩
    · rintro ⟨p, hp, rfl, hargv⟩
      exact ⟨p, hp, rfl, (h p hp hself hexclude).mpr hargv⟩

/-- A process of another program, whose two first arguments are the core path with its blank
between them, is killed. -/
theorem foreign_process_killed :
    ¬∀ (env : Env) (excludePid : Option Int32) (table : List Process),
      env.config.corePath.head? ≠ some ' ' → '\n' ∉ env.config.corePath →
        JanitorExact env excludePid table := by
  intro h
  have hexact := h
    { Client.env with
      config := ⟨"/Library/Application Support/EasyTier/bin/easytier-core".toList, none⟩ }
    none
    [⟨4321, "/Library/Application".toList, ["Support/EasyTier/bin/easytier-core".toList], 1,
      by decide⟩]
    (by decide) (by decide)
  obtain ⟨p, hp, -, hargv, -⟩ := (hexact.pids 4321).mp (by decide +kernel)
  rw [List.mem_singleton.mp hp] at hargv
  exact absurd hargv (by decide)

end EasyTierMac.Supervisor
