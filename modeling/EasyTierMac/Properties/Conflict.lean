import EasyTierMac.Bridge.Conflict
import EasyTierMac.Supervisor.ProcessTable

/-!
# Which processes are conflicts

`classify` takes what is in front of the first white space of a command line for `argv[0]`.
`shown` says what that is in terms of the arguments. The lists are those of the processes in
question exactly where every process of the table is `Legible`: what it shows names a core or
a VPN if and only if its `argv[0]` does (`classify_exact_iff`). An executable in a directory
with a blank in its name shows a part of its path, so it can be missed, and one of another
name can be taken for a core or a VPN.
-/

namespace EasyTierMac.Bridge.Conflict

open Rust
open Supervisor (Process psText)

/-! ## What a command line shows -/

/-- The first word of the arguments. -/
def shown : List Text → Text
  | [] => []
  | a :: as => if a.all isWhitespace = true then shown as else firstWord a

theorem firstWord_commandLine (p : Process) :
    firstWord p.commandLine = shown (p.argv0 :: p.args) := by
  unfold Process.commandLine
  generalize p.argv0 = a
  generalize p.args = as
  induction as generalizing a with
  | nil =>
    rw [List.flatMap_nil, List.append_nil, shown]
    split
    next ha =>
      have hnil := firstWord_append_of_blank (List.all_eq_true.mp ha) []
      rw [List.append_nil] at hnil
      exact hnil
    next => rfl
  | cons b bs ih =>
    rw [List.flatMap_cons, shown]
    split
    next ha =>
      have hblank : ∀ c ∈ a ++ [' '], isWhitespace c = true := by
        intro c hc
        rcases List.mem_append.mp hc with hc | hc
        · exact List.all_eq_true.mp ha c hc
        · rw [List.mem_singleton.mp hc]
          decide
      have hmove : a ++ (' ' :: b ++ bs.flatMap (' ' :: ·))
          = (a ++ [' ']) ++ (b ++ bs.flatMap (' ' :: ·)) := by simp
      rw [hmove, firstWord_append_of_blank hblank]
      exact ih b
    next ha =>
      have hword : ∃ c ∈ a, isWhitespace c = false := by
        simpa using ha
      refine firstWord_append hword fun c hc => ?_
      cases hc
      decide

/-- Without white space in it, `argv[0]` is shown. -/
theorem shown_of_plain {a : Text} (hne : a ≠ []) (ha : ∀ c ∈ a, isWhitespace c = false)
    (as : List Text) : shown (a :: as) = a := by
  rw [shown, if_neg, firstWord_eq_self ha]
  intro hall
  obtain ⟨c, t, rfl⟩ := List.exists_cons_of_ne_nil hne
  have hc := List.all_eq_true.mp hall c List.mem_cons_self
  rw [ha c List.mem_cons_self] at hc
  cases hc

/-! ## What the loop finds -/

/-- `classify` takes the process for an unmanaged core. -/
def takenForCore (p : Process) : Bool := isCoreArgv0 (shown (p.argv0 :: p.args))

/-- `classify` takes the process for a VPN. -/
def takenForVpn (p : Process) : Bool := isTunVpn (shown (p.argv0 :: p.args))

theorem classifyLine_pid (c : Conflicts) (p : Process) {args : Text}
    (hargs : trim args = trim p.commandLine) :
    classifyLine c (List.replicate p.pad ' ' ++ ((toString p.pid.toInt).toList ++ ' ' :: args))
      = { unmanagedCore := c.unmanagedCore || takenForCore p
          unmanagedCoreCmds :=
            c.unmanagedCoreCmds ++ if takenForCore p then [trim p.commandLine] else []
          tunVpn := c.tunVpn || takenForVpn p
          tunVpnCmds := c.tunVpnCmds ++ if takenForVpn p then [trim p.commandLine] else [] } := by
  have hword : firstWord (trim p.commandLine) = shown (p.argv0 :: p.args) := by
    rw [firstWord_trim, firstWord_commandLine]
  have hcore : (isCoreArgv0 (firstWord (trim p.commandLine)) &&
      !isManagedCore (trim p.commandLine)) = takenForCore p := by
    unfold takenForCore
    rw [← hword]
    cases h : isCoreArgv0 (firstWord (trim p.commandLine)) with
    | false => rfl
    | true => rw [isManagedCore_of_core h]; rfl
  unfold classifyLine
  rw [Supervisor.splitBlank_pid]
  dsimp only
  rw [hargs, hcore, hword]
  show (if takenForVpn p = true then _ else _) = _
  cases takenForCore p <;> cases takenForVpn p <;> simp

/-- What `classify` makes of the rows of a table: the flags and the lists follow its test. -/
theorem classify_rows {row : Process → Text} {table : List Process}
    (hrow : ∀ p ∈ table, ∃ args, trim args = trim p.commandLine ∧
      row p = List.replicate p.pad ' ' ++ ((toString p.pid.toInt).toList ++ ' ' :: args)) :
    classify (table.map row)
      = { unmanagedCore := table.any takenForCore
          unmanagedCoreCmds := (table.filter takenForCore).map fun p => trim p.commandLine
          tunVpn := table.any takenForVpn
          tunVpnCmds := (table.filter takenForVpn).map fun p => trim p.commandLine } := by
  have hfold (c : Conflicts) : (table.map row).foldl classifyLine c
      = { unmanagedCore := c.unmanagedCore || table.any takenForCore
          unmanagedCoreCmds := c.unmanagedCoreCmds ++
            (table.filter takenForCore).map fun p => trim p.commandLine
          tunVpn := c.tunVpn || table.any takenForVpn
          tunVpnCmds := c.tunVpnCmds ++
            (table.filter takenForVpn).map fun p => trim p.commandLine } := by
    induction table generalizing c with
    | nil => simp
    | cons p table ih =>
      obtain ⟨args, hargs, hp⟩ := hrow p List.mem_cons_self
      rw [List.map_cons, List.foldl_cons, hp, classifyLine_pid c p hargs,
        ih fun q hq => hrow q (List.mem_cons_of_mem p hq)]
      cases hcore : takenForCore p <;> cases hvpn : takenForVpn p <;>
        simp [hcore, hvpn]
  unfold classify
  rw [hfold]
  simp

/-! ## Exactness -/

/-- The process runs an `easytier-core`, and not the managed one. -/
def isUnmanagedCore (p : Process) : Bool :=
  rsplitNext '/' p.argv0 == "easytier-core".toList && p.argv0 != MANAGED_CORE

/-- The process runs a known VPN. -/
def isVpn (p : Process) : Bool := TUN_VPNS.contains (rsplitNext '/' p.argv0)

/-- The lists are the command lines of the processes in question, each once and in order, and
a flag is set if and only if its list has an entry. -/
structure Exact (table : List Process) (c : Conflicts) : Prop where
  core : c.unmanagedCoreCmds = (table.filter isUnmanagedCore).map Process.commandLine
  vpn : c.tunVpnCmds = (table.filter isVpn).map Process.commandLine
  coreFlag : c.unmanagedCore = true ↔ c.unmanagedCoreCmds ≠ []
  vpnFlag : c.tunVpn = true ↔ c.tunVpnCmds ≠ []

/-- No white space at the ends. -/
def Tight (t : Text) : Prop :=
  (∀ c ∈ t.head?, isWhitespace c = false) ∧ ∀ c ∈ t.getLast?, isWhitespace c = false

/-- What the process shows names a core or a VPN if and only if its `argv[0]` does, and its
command line has no white space at its ends if it is to be listed. -/
structure Legible (p : Process) : Prop where
  core : isUnmanagedCore p = isCoreArgv0 (shown (p.argv0 :: p.args))
  vpn : isVpn p = isTunVpn (shown (p.argv0 :: p.args))
  tight : isUnmanagedCore p = true ∨ isVpn p = true → Tight p.commandLine

/-- Two ways to pick and print elements of a list agree if and only if they agree at every
element, provided that an element is picked by the second way if it prints as one that is. -/
theorem map_filter_eq_iff {α β : Type*} {l : List α} {p q : α → Bool} {f g : α → β}
    (h : ∀ a ∈ l, ∀ b ∈ l, p a = true → q b = true → f a = g b → q a = true) :
    (l.filter p).map f = (l.filter q).map g ↔
      ∀ a ∈ l, p a = q a ∧ (p a = true → f a = g a) := by
  constructor
  · intro heq
    have hpq : ∀ a ∈ l, p a = true → q a = true := by
      intro a ha hp
      have hmem : f a ∈ (l.filter q).map g :=
        heq ▸ List.mem_map_of_mem (List.mem_filter.mpr ⟨ha, hp⟩)
      obtain ⟨b, hb, hgb⟩ := List.mem_map.mp hmem
      obtain ⟨hb, hq⟩ := List.mem_filter.mp hb
      exact h a ha b hb hp hq hgb.symm
    -- one of the filters is a sublist of the other, and they are of the same length
    have hlen := congrArg List.length heq
    rw [List.length_map, List.length_map] at hlen
    have htwice : l.filter p = (l.filter q).filter p := by
      rw [List.filter_filter]
      refine List.filter_congr fun a ha => ?_
      cases hp : p a with
      | false => rfl
      | true => rw [hpq a ha hp]; rfl
    have hsub : (l.filter p).Sublist (l.filter q) := by
      rw [htwice]
      exact List.filter_sublist
    have hfilter : l.filter p = l.filter q := hsub.eq_of_length hlen
    rw [hfilter, List.map_inj_left] at heq
    intro a ha
    have hqp : q a = true → p a = true := fun hq =>
      (List.mem_filter.mp (hfilter ▸ List.mem_filter.mpr ⟨ha, hq⟩)).2
    refine ⟨Bool.eq_iff_iff.mpr ⟨hpq a ha, hqp⟩, fun hp => ?_⟩
    exact heq a (List.mem_filter.mpr ⟨ha, hpq a ha hp⟩)
  · intro heq
    rw [List.filter_congr fun a ha => (heq a ha).1]
    refine List.map_congr_left fun a ha => ?_
    obtain ⟨ha, hq⟩ := List.mem_filter.mp ha
    exact (heq a ha).2 ((heq a ha).1.trans hq)

/-- Command lines that differ in white space at their ends show the same. -/
theorem shown_congr {p q : Process} (h : p.commandLine = trim q.commandLine) :
    shown (p.argv0 :: p.args) = shown (q.argv0 :: q.args) := by
  rw [← firstWord_commandLine, ← firstWord_commandLine, h, firstWord_trim]

theorem tight_iff {t : Text} : Tight t ↔ t = trim t := by
  constructor
  · intro h
    exact (trim_eq_self h.1 h.2).symm
  · intro h
    rw [h]
    exact ⟨head_trim t, last_trim t⟩

/-- A list has an entry where something is picked. -/
theorem any_iff {l : List Process} {q : Process → Bool} {g : Process → Text} :
    l.any q = true ↔ (l.filter q).map g ≠ [] := by
  rw [ne_eq, List.map_eq_nil_iff, List.filter_eq_nil_iff, List.any_eq_true]
  push Not
  rfl

/-- One list of the report: a test of what is shown picks the processes in question, and they
are listed as they are, if and only if the test is right about every process. -/
theorem listed_iff (test : Text → Bool) {named : Process → Bool} {table : List Process} :
    ((table.filter fun p => test (shown (p.argv0 :: p.args))).map fun p => trim p.commandLine)
        = (table.filter named).map Process.commandLine ↔
      ∀ p ∈ table, named p = test (shown (p.argv0 :: p.args)) ∧
        (named p = true → Tight p.commandLine) := by
  rw [eq_comm, map_filter_eq_iff]
  · refine forall₂_congr fun p _ => ?_
    rw [tight_iff]
  · -- the test cannot tell a process from one that prints the same
    intro p _ q _ _ hq he
    rw [shown_congr he]
    exact hq

/-- **Conflicts.** The report on a process table is exact if and only if every process of
the table is legible. -/
theorem classify_exact_iff (table : List Process) :
    Exact table (classify (table.map Process.row)) ↔ ∀ p ∈ table, Legible p := by
  have hc : classify (table.map Process.row) = _ :=
    classify_rows fun p _ => ⟨p.commandLine, rfl, rfl⟩
  rw [hc]
  constructor
  · intro h p hp
    obtain ⟨hcore, hcoreTight⟩ := (listed_iff isCoreArgv0).mp h.core p hp
    obtain ⟨hvpn, hvpnTight⟩ := (listed_iff isTunVpn).mp h.vpn p hp
    exact ⟨hcore, hvpn, fun hlisted => hlisted.elim hcoreTight hvpnTight⟩
  · intro h
    refine ⟨?_, ?_, any_iff, any_iff⟩
    · apply (listed_iff isCoreArgv0).mpr
      intro p hp
      exact ⟨(h p hp).core, fun hlisted => (h p hp).tight (.inl hlisted)⟩
    · apply (listed_iff isTunVpn).mpr
      intro p hp
      exact ⟨(h p hp).vpn, fun hlisted => (h p hp).tight (.inr hlisted)⟩

/-- A core in a directory with a blank in its name is missed. -/
theorem core_missed :
    ¬ Exact [⟨501, "/Users/me/My Tools/easytier-core".toList, ["-d".toList], 2, by decide⟩]
      (classify (List.map Process.row
        [⟨501, "/Users/me/My Tools/easytier-core".toList, ["-d".toList], 2, by decide⟩])) := by
  intro h
  have hcore := h.core
  revert hcore
  decide

/-- A process is legible if its `argv[0]` has no white space in it and its last argument does
not end in some. -/
theorem legible_of_plain {p : Process} (hne : p.argv0 ≠ [])
    (hplain : ∀ c ∈ p.argv0, isWhitespace c = false)
    (hlast : ∀ c ∈ p.commandLine.getLast?, isWhitespace c = false) : Legible p := by
  have hshown := shown_of_plain hne hplain p.args
  have hmanaged : p.argv0 ≠ MANAGED_CORE := by
    intro he
    have hblank : isWhitespace ' ' = false := hplain ' ' (he ▸ by decide)
    cases hblank
  refine ⟨?_, ?_, fun _ => ⟨fun c hc => ?_, hlast⟩⟩
  · rw [hshown, Bool.eq_iff_iff, isCoreArgv0_iff]
    unfold isUnmanagedCore
    rw [Bool.and_eq_true, beq_iff_eq, bne_iff_ne]
    exact and_iff_left hmanaged
  · rw [hshown]
    rfl
  · unfold Process.commandLine at hc
    rw [List.head?_append_of_ne_nil _ hne] at hc
    exact hplain c (List.mem_of_mem_head? hc)

/-- What `detect` reports of the text that `ps` prints. -/
theorem detect_psText (table : List Process) :
    detect (some (psText table)) = classify (table.map Process.row) := by
  have hrows : classify (table.map fun p => stripCr p.row) = _ :=
    classify_rows fun p _ =>
      ⟨stripCr p.commandLine, trim_stripCr _, Supervisor.stripCr_row p⟩
  have hrows' : classify (table.map Process.row) = _ :=
    classify_rows fun p _ => ⟨p.commandLine, rfl, rfl⟩
  unfold detect
  rw [Option.map_some, Supervisor.lines_psText, hrows']
  exact hrows

end EasyTierMac.Bridge.Conflict
