import EasyTierMac.Rust.Str
import Mathlib.Logic.Function.Basic

/-!
# Peer authorization, configuration and hooks (`auth.rs`, `config.rs`, `hooks.rs`)

`AuthMode.allows` and `checkHookSecurity` are the two pure gates of the
supervisor. `run_hook` itself starts a thread; its thread is modelled here as
the states `HookPc` that `run_child` goes through, and its effect on the system
in `State.lean`. The hook directory is not modelled: what `lstat` says about
the script is left open at every call (`Stat`).
-/

namespace EasyTierMac.Supervisor

/-- Whom a connection may come from. -/
inductive AuthMode
  /-- launchd/production: root and the installing user. -/
  | launchd (ownerUid : UInt32)
  /-- `--dev-listen`: only the process's own euid. -/
  | dev (euid : UInt32)
  deriving DecidableEq, Repr

/-- `AuthMode::allows`. -/
def AuthMode.allows : AuthMode → UInt32 → Bool
  | .launchd ownerUid, uid => uid == 0 || uid == ownerUid
  | .dev euid, uid => uid == euid

/-- The keys of `supervisor.toml` that the modelled functions read. -/
structure Config where
  /-- Absolute path of the core binary, and its `argv[0]`. -/
  corePath : Rust.Text
  /-- Per-hook wall-clock budget in seconds; absent means 30. -/
  hookTimeoutSecs : Option UInt64
  deriving Repr

/-- Default hook timeout when `hook_timeout_secs` is absent. -/
def DEFAULT_HOOK_TIMEOUT_SECS : UInt64 := 30

/-- Nanoseconds of `n` seconds; every clock reading of the model is in nanoseconds. -/
def secs (n : Nat) : Nat := n * 1000000000

/-- `Config::hook_timeout`. -/
def Config.hookTimeout (c : Config) : Nat :=
  secs (c.hookTimeoutSecs.getD DEFAULT_HOOK_TIMEOUT_SECS).toNat

/-- `Instant + Duration`: panics (`none`) when the sum leaves the signed 64-bit
range of seconds. -/
def instantAdd (now d : Nat) : Option Nat :=
  if now + d < secs (2 ^ 63) then some (now + d) else none

/-- Which lifecycle transition a hook fires on. -/
inductive HookEvent
  | up
  | down
  deriving DecidableEq, Repr

/-- Why a `down` hook fired. -/
inductive HookReason
  /-- Client sent `stop`. -/
  | requested
  /-- Owner control connection dropped. -/
  | ownerDrop
  /-- Core died on its own. -/
  | coreExited
  /-- Janitor killed a leftover core. -/
  | janitor
  deriving DecidableEq, Repr

/-- The file facts `check_hook_security` needs. -/
structure FileFacts where
  isFile : Bool
  uid : UInt32
  gid : UInt32
  mode : UInt32
  deriving DecidableEq, Repr

/-- `check_hook_security`: may this script be executed? -/
def checkHookSecurity (f : FileFacts) : AuthMode → Except String Unit
  | auth =>
    if !f.isFile then
      .error "hook must be a regular file (symlink or special file rejected)"
    else if f.mode &&& 0o022 != 0 then .error "hook must not be group/world writable"
    else if f.mode &&& 0o100 == 0 then .error "hook must be executable by its owner"
    else match auth with
      | .launchd _ =>
        if f.uid != 0 then
          .error ("hook must be owned by root, is uid " ++ toString f.uid.toNat)
        else if f.gid != 0 then
          .error ("hook must be group wheel (gid 0), is gid " ++ toString f.gid.toNat)
        else .ok ()
      | .dev euid =>
        if f.uid != euid then
          .error ("hook (dev mode) must be owned by uid " ++ toString euid.toNat
            ++ ", is uid " ++ toString f.uid.toNat)
        else .ok ()

/-- `file_facts`: `absent` for `Ok(None)`, `failed` for an error of `lstat`. -/
inductive Stat
  | absent
  | failed
  | found (f : FileFacts)
  deriving DecidableEq, Repr

/-- Does `run_hook` start a hook thread? It does when the script exists and
passes the security gate. -/
def Stat.runs (auth : AuthMode) : Stat → Bool
  | .found f => (checkHookSecurity f auth).isOk
  | _ => false

/-- A hook that runs has passed `check_hook_security`: it is a regular file,
executable by its owner and not writable by anybody else. -/
theorem Stat.runs_found {auth : AuthMode} {st : Stat} (h : st.runs auth = true) :
    ∃ f, st = .found f ∧ f.isFile = true ∧ f.mode &&& 0o022 = 0 ∧ f.mode &&& 0o100 ≠ 0 := by
  cases st with
  | absent => cases h
  | failed => cases h
  | found f =>
    refine ⟨f, rfl, ?_⟩
    simp only [Stat.runs, checkHookSecurity] at h
    split at h
    · cases h
    · next hfile =>
      split at h
      · cases h
      · next hwrite =>
        split at h
        · cases h
        · next hexec =>
          exact ⟨by simpa using hfile, by simpa using hwrite, by simpa using hexec⟩

/-- How a hook thread ended. -/
inductive HookEnd
  /-- The log could not be opened or cloned, or the script not spawned. -/
  | notLaunched
  /-- The script exited and was reaped. -/
  | exited
  /-- The script outlived its budget: killed and reaped. -/
  | timedOut
  /-- `try_wait` failed. -/
  | waitFailed
  /-- The deadline is not representable: the thread panicked. -/
  | panicked
  deriving DecidableEq, Repr

/-- Where a hook thread is in `run_child`. -/
inductive HookPc
  /-- Spawned by `run_hook`; the script is not running yet. -/
  | created
  /-- The script runs; it is killed at the deadline. -/
  | running (deadline : Nat)
  | finished (how : HookEnd)
  deriving DecidableEq, Repr

/-- The script was launched, ran to completion or was killed at its timeout, and
was reaped. -/
def HookPc.complete : HookPc → Bool
  | .finished .exited | .finished .timedOut => true
  | _ => false

def HookPc.isFinished : HookPc → Bool
  | .finished _ => true
  | _ => false

example : (checkHookSecurity ⟨true, 0, 0, 0o755⟩ (.launchd 501)).isOk = true := by decide
example : (checkHookSecurity ⟨true, 0, 0, 0o775⟩ (.launchd 501)).isOk = false := by decide

end EasyTierMac.Supervisor
