import EasyTierMac.Supervisor.LifeView

/-!
# Runs

The step condition most properties assume (`NoWaitError`) and what the lifecycle
invariants say about a supervisor state that such a run reaches. The last
section is a client for concrete runs: the lines it sends, a decoder that
answers on these lines as `serde_json` does, and the actions that make it
connect and send.
-/

namespace EasyTierMac.Supervisor

open Transition (System)
open Lifecycle (Base Tracked Reaped)

/-! ## `try_wait` reports no error -/

section

variable {env : Env} {s : Sys}

/-- The step is an error of `try_wait`. -/
def waitError (s : Sys) : Action → Bool
  | .monitor g .failed => (s.monitors g).pc == .tryWait
  | _ => false

/-- The step is not an error of `try_wait`. -/
def NoWaitError (s : Sys) (a : Action) : Prop := waitError s a = false

instance : ∀ s a, Decidable (NoWaitError s a) := fun _ _ => inferInstanceAs (Decidable (_ = _))

theorem NoWaitError.label {a : Action} (h : NoWaitError s a) {b : Lifecycle.Act}
    (hl : LifeLabel s a b) : Lifecycle.NoWaitErr s.lifeView b := by
  rintro g rfl
  obtain ⟨rfl, hpc⟩ := hl
  simp [NoWaitError, waitError, hpc] at h

theorem base_of_reachable (h : (supervisor env).Reachable s) : Base s.lifeView :=
  .of_reachable ((lifecycle env).reachable h)

theorem tracked_of_reachable (h : (supervisor env).Reachable s) : Tracked s.lifeView :=
  .of_reachable ((lifecycle env).reachable h)

theorem reaped_of_reachable (h : (supervisor env).ReachableBy NoWaitError s) :
    Reaped s.lifeView :=
  .of_reachable ((lifecycle env).reachableBy (fun _ hp hl => NoWaitError.label hp hl) h)

/-- A monitor belongs to a generation that was spawned. -/
theorem lt_nGen_of_monitor (h : (supervisor env).Reachable s) {g : Gen}
    (hpc : (s.monitors g).pc ≠ .absent) : g < s.nGen :=
  (base_of_reachable h).lt_of_phase (MonPc.absent_iff.not.mpr hpc)

/-- No connection touches a monitor that exists. -/
theorem monitor_keep (hr : (supervisor env).Reachable s) {c : ConnId} {ans : Answer} {s' : Sys}
    (h : ConnMove env s c ans s') {g : Gen} (hpc : (s.monitors g).pc ≠ .absent) :
    s'.monitors g = s.monitors g := by
  rcases h.monitors_cases g with he | ⟨hsp, -⟩
  · exact he
  · have hab : (s.monitors g).pc.phase = .absent :=
      ((base_of_reachable hr).spawned c g (congrArg ConnPc.call hsp)).2.1
    exact absurd (MonPc.absent_iff.mp hab) hpc

/-- A monitor that is about to make the `Stopped` transition finds its own
generation in the core entry. -/
theorem exitLock_own (h : (supervisor env).Reachable s) {g : Gen} {info : ExitInfo}
    (hpc : (s.monitors g).pc = .exitLock info) :
    s.nGen = g + 1 ∧ ∃ run, s.core = .running run ∧ run.pid = (s.monitors g).pid := by
  have hB := base_of_reachable h
  have hT := tracked_of_reachable h
  have hph : (s.lifeView.mon g).phase = .exiting := congrArg MonPc.phase hpc
  have hne : (s.lifeView.mon g).phase ≠ .absent := by simp [hph]
  have hns : ¬ (s.lifeView.mon g).phase.settled := by rw [hph]; exact id
  exact ⟨hT.exiting_latest hB hph, hT.pid_eq hB (hB.lt_of_phase hne) hne hns⟩

/-- A run that evaluates to a state passing the test `p` reaches such a state. -/
theorem exists_reachableBy (env : Env) (P : Sys → Action → Prop) [∀ s a, Decidable (P s a)]
    (l : List Action) (p : Sys → Bool) (h : (System.runBy (step env) P {} l).any p = true) :
    ∃ s, (supervisor env).ReachableBy P s ∧ p s = true :=
  System.exists_reachableBy_of_runBy h

end

/-! ## A client for concrete runs -/

namespace Client

open Rust (Text)

def helloText : Text :=
  ['{', '"', 'c', 'm', 'd', '"', ':', '"', 'h', 'e', 'l', 'l', 'o', '"', ',',
    '"', 'p', 'r', 'o', 't', 'o', '"', ':', '1', '}']

def takeoverText : Text :=
  ['{', '"', 'c', 'm', 'd', '"', ':', '"', 'h', 'e', 'l', 'l', 'o', '"', ',',
    '"', 'p', 'r', 'o', 't', 'o', '"', ':', '1', ',',
    '"', 't', 'a', 'k', 'e', 'o', 'v', 'e', 'r', '"', ':', 't', 'r', 'u', 'e', '}']

def startText : Text := ['{', '"', 'c', 'm', 'd', '"', ':', '"', 's', 't', 'a', 'r', 't', '"', '}']

def stopText : Text := ['{', '"', 'c', 'm', 'd', '"', ':', '"', 's', 't', 'o', 'p', '"', '}']

/-- The line of a text of ASCII characters. -/
def line (t : Text) : List UInt8 := t.map (fun ch => UInt8.ofNat ch.toNat) ++ [10]

def fromStr (t : Text) : Except String Cmd :=
  if t = helloText then .ok (.hello 1 false)
  else if t = takeoverText then .ok (.hello 1 true)
  else if t = startText then .ok .start
  else if t = stopText then .ok .stop
  else .error "unexpected line"

/-- A development supervisor of user 501. -/
def env : Env where
  config := ⟨['/', 'c', 'o', 'r', 'e'], none⟩
  auth := .dev 501
  selfPid := 1
  version := "0.1.0"
  fromStr := fromStr

/-- The activation-time sweep finds no `ps`, and the supervisor serves. -/
def boot : List Action := [.main .failed]

/-- The peer's bytes arrive and its thread reads one line of them. -/
def send (c : ConnId) (bytes : List UInt8) : List Action :=
  [.arrive c bytes, .conn c (.refill bytes.length), .conn c .done]

/-- A peer connects and says hello; its thread is about to take the lease. -/
def connect (c : ConnId) (hello : Text) : List Action :=
  [.accept (some 501), .conn c .done] ++ send c (line hello)

/-- Connection `c` takes the free lease and gets its hello reply. -/
def own (c : ConnId) : List Action := [.conn c .done, .conn c .done, .conn c .done]

/-- Connection `c` takes the lease over, does not get through to the old writer,
and gets its hello reply. -/
def takeOver (c : ConnId) : List Action :=
  [.conn c .done, .conn c .failed, .conn c (.keep 0), .conn c .done, .conn c .done]

/-- Connection `c` sends `start`, spawns a core with this pid, and gets its reply. -/
def start (c : ConnId) (pid : Int32) : List Action :=
  send c (line startText) ++
    [.conn c (.spawn (.child pid 5000)), .conn c .done, .conn c (.stat .absent), .conn c .done]

/-- Connection `c` sends `stop` and marks the core. -/
def stop (c : ConnId) : List Action := send c (line stopText) ++ [.conn c .done]

/-- The core of generation `g` dies, and its monitor reaps it and makes the
`Stopped` transition. -/
def perish (g : Gen) : List Action :=
  [.die g ⟨some 0, none⟩, .monitor g .done, .monitor g .done]

end Client

end EasyTierMac.Supervisor
