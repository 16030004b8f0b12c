import EasyTierMac.Supervisor.Proto

/-!
# Orphan reconciliation (`janitor.rs`)

`orphanPids` is the loop of `sweep_orphans` over the text that `ps` printed: the
pids it will pass to `kill`. The calls themselves (running `ps`, one `kill(2)`
after the other, the `down` (janitor) hook) block and interleave with the rest
of the supervisor, so a sweep in progress is the state machine `Sweep`.
-/

namespace EasyTierMac.Supervisor

open Rust (Text trimStart lines splitBlank parseI32)

/-- `argv0_matches`: `args` is `core_path`, or continues with a space. -/
def argv0Matches (args corePath : Text) : Bool :=
  args == corePath || (corePath ++ [' ']).isPrefixOf args

/-- The body of the loop of `sweep_orphans`: the pid a line of `ps` output makes
it kill, if any. -/
def orphanPid (corePath : Text) (selfPid : Int32) (excludePid : Option Int32) (line : Text) :
    Option Int32 :=
  let parts := splitBlank (trimStart line)
  match parseI32 parts.1 with
  | none => none
  | some pid =>
    let args := trimStart (parts.2.getD [])
    if pid == selfPid || some pid == excludePid then none
    else if argv0Matches args corePath then some pid
    else none

/-- The pids `sweep_orphans` kills, in the order of the `ps` output. -/
def orphanPids (corePath : Text) (selfPid : Int32) (excludePid : Option Int32) (text : Text) :
    List Int32 :=
  (lines text).filterMap (orphanPid corePath selfPid excludePid)

/-- A process as `ps -axww -o pid=,args=` reports it. -/
structure Proc where
  pid : Int32
  args : Text
  deriving DecidableEq, Repr

/-- One line of `ps` output. -/
def Proc.line (p : Proc) : Text := (toString p.pid.toInt).toList ++ ' ' :: p.args ++ ['\n']

/-- The `ps` output for a process table. -/
def psOutput (procs : List Proc) : Text := procs.flatMap Proc.line

/-- Where a running `sweep_orphans` is. -/
inductive Sweep
  /-- About to run `ps`. -/
  | ps
  /-- Pids still to kill, and how many kills succeeded. -/
  | kill (todo : List Int32) (killed : Nat)
  deriving DecidableEq, Repr

example : argv0Matches "/tmp/et/easytier-core --daemon".toList "/tmp/et/easytier-core".toList
    = true := by decide
example : argv0Matches "/tmp/et/easytier-core-extra".toList "/tmp/et/easytier-core".toList
    = false := by decide

end EasyTierMac.Supervisor
