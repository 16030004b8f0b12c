import EasyTierMac.Rust.Lines

/-!
# Process tables as `ps` prints them

`ps -o pid=,args=` prints a line for each process: its pid, a blank, and its arguments with
blanks between them. Cut into lines again, the text is the rows of the table
(`lines_psText`), and up to the first blank of a row stands the pid (`splitBlank_pid`).
-/

namespace EasyTierMac.Supervisor

open Rust

/-- A process, as `ps` prints it on one line. -/
structure Process where
  pid : Int32
  argv0 : Text
  args : List Text
  /-- How many blanks there are in front of its line. -/
  pad : Nat
  no_newline : ∀ a ∈ argv0 :: args, '\n' ∉ a

namespace Process

variable (p : Process)

/-- The arguments, joined by single blanks. -/
def commandLine : Text := p.argv0 ++ p.args.flatMap (' ' :: ·)

def row : Text :=
  List.replicate p.pad ' ' ++ ((toString p.pid.toInt).toList ++ ' ' :: p.commandLine)

end Process

/-- What `ps` prints for a process table. -/
def psText (table : List Process) : Text := (table.map Process.row).flatMap (· ++ ['\n'])

/-! ## Reading the text -/

theorem stripCr_row (p : Process) :
    stripCr p.row = List.replicate p.pad ' ' ++
      ((toString p.pid.toInt).toList ++ ' ' :: stripCr p.commandLine) := by
  have hne : (toString p.pid.toInt).toList ++ ' ' :: p.commandLine ≠ [] := by simp
  unfold Process.row
  rw [stripCr_append hne, stripCr_append (List.cons_ne_nil _ _), stripCr_cons (by decide)]

/-- What stands before and after the first blank behind the pid. -/
theorem splitBlank_pid (p : Process) (t : Text) :
    splitBlank (trimStart
        (List.replicate p.pad ' ' ++ ((toString p.pid.toInt).toList ++ ' ' :: t)))
      = ((toString p.pid.toInt).toList, some t) := by
  have hpad : ∀ c ∈ List.replicate p.pad ' ', isWhitespace c = true := by
    intro c hc
    rw [List.eq_of_mem_replicate hc]
    decide
  have hhead : ∀ c ∈ ((toString p.pid.toInt).toList ++ ' ' :: t).head?,
      isWhitespace c = false := by
    intro c hc
    have hne : (toString p.pid.toInt).toList ≠ [] := by
      intro hnil
      have hparse := parseI32_toString p.pid
      rw [hnil] at hparse
      cases hparse
    rw [List.head?_append_of_ne_nil _ hne] at hc
    exact isWhitespace_toString (List.mem_of_mem_head? hc)
  rw [trimStart_append hpad, trimStart_of_head hhead,
    splitBlank_append (fun c hc => isWhitespace_toString hc) (by decide)]

theorem newline_not_mem_row (p : Process) : '\n' ∉ p.row := by
  intro h
  unfold Process.row at h
  rcases List.mem_append.mp h with h | h
  · cases List.eq_of_mem_replicate h
  rcases List.mem_append.mp h with h | h
  · have hws := isWhitespace_toString h
    cases hws
  rcases List.mem_cons.mp h with h | h
  · cases h
  unfold Process.commandLine at h
  rcases List.mem_append.mp h with h | h
  · exact p.no_newline p.argv0 List.mem_cons_self h
  obtain ⟨a, ha, h⟩ := List.mem_flatMap.mp h
  rcases List.mem_cons.mp h with h | h
  · cases h
  · exact p.no_newline a (List.mem_cons_of_mem _ ha) h

/-- The lines of the text are the rows, each without a carriage return at its end. -/
theorem lines_psText (table : List Process) :
    lines (psText table) = table.map fun p => stripCr p.row := by
  have hrows : ∀ l ∈ table.map Process.row, '\n' ∉ l := by
    intro l hl
    obtain ⟨p, -, rfl⟩ := List.mem_map.mp hl
    exact newline_not_mem_row p
  unfold psText
  rw [lines_flatMap hrows, List.map_map]
  rfl

end EasyTierMac.Supervisor
