import EasyTierMac.Supervisor.Main
import EasyTierMac.Transition

/-!
# The hook thread, call by call (`hooks.rs`)

`HookPc` says of a hook thread only whether its script runs and until when. Here `run_child`
takes every call on its own: it opens the log, spawns the script, polls it with `try_wait`,
looks at the clock, sleeps, kills, waits. The clock goes on and the script dies at any time.

`trace` is ghost state: what the thread has done to the script, and when. `Course` says what
it looks like at each point of the loop, and is kept by every step. Seen from the supervisor,
a step of `run_child` is a step of the hook thread of `State.lean` or none (`step_hookPc`).
-/

namespace EasyTierMac.Supervisor.RunChild

open Transition (System)

/-! ## Steps -/

/-- `POLL_INTERVAL`, 50 ms. -/
def POLL_INTERVAL : Nat := 50000000

/-- The process of the script. -/
inductive Script
  | absent
  | alive
  /-- Dead, but not waited for. -/
  | dead
  | reaped
  deriving DecidableEq, Repr

def Script.unreaped : Script → Bool
  | .alive | .dead => true
  | .absent | .reaped => false

inductive Event
  | spawn
  /-- `try_wait` found the script alive. -/
  | poll
  | sigkill (script : Script)
  | reap
  deriving DecidableEq, Repr

inductive Pc
  | opening
  | spawning
  | polling (deadline : Nat)
  /-- About to look at the clock. -/
  | checking (deadline : Nat)
  | sleeping (deadline wake : Nat)
  /-- In `wait`, after the SIGKILL. -/
  | waiting (deadline : Nat)
  | finished (how : HookEnd)
  deriving DecidableEq, Repr

structure Run where
  now : Nat
  pc : Pc := .opening
  script : Script := .absent
  trace : List (Nat × Event) := []
  deriving DecidableEq, Repr

def Run.note (r : Run) (e : Event) : Run := { r with trace := r.trace ++ [(r.now, e)] }

inductive Action
  /-- A call of the thread; `false`: it fails. -/
  | thread (ok : Bool)
  | tick (d : Nat)
  /-- The script dies, on its own or of a signal. -/
  | die
  deriving DecidableEq, Repr

/-- `run_child`. -/
def threadStep (timeout : Nat) (r : Run) (ok : Bool) : Option Run :=
  match r.pc with
  | .opening => some { r with pc := if ok then .spawning else .finished .notLaunched }
  | .spawning =>
    if ok then
      match instantAdd r.now timeout with
      | some deadline => some ({ r with pc := .polling deadline, script := .alive }.note .spawn)
      | none => some ({ r with pc := .finished .panicked, script := .alive }.note .spawn)
    else some { r with pc := .finished .notLaunched }
  | .polling deadline =>
    if ok then
      match r.script with
      | .alive => some ({ r with pc := .checking deadline }.note .poll)
      | .dead => some ({ r with pc := .finished .exited, script := .reaped }.note .reap)
      | .absent | .reaped => none
    else some { r with pc := .finished .waitFailed }
  | .checking deadline =>
    if deadline ≤ r.now then some ({ r with pc := .waiting deadline }.note (.sigkill r.script))
    else some { r with pc := .sleeping deadline (r.now + POLL_INTERVAL) }
  | .sleeping deadline wake =>
    if wake ≤ r.now then some { r with pc := .polling deadline } else none
  | .waiting _ =>
    if r.script = .dead then
      some ({ r with pc := .finished .timedOut, script := .reaped }.note .reap)
    else none
  | .finished _ => none

def step (timeout : Nat) (r : Run) : Action → Option Run
  | .thread ok => threadStep timeout r ok
  | .tick d => some { r with now := r.now + d }
  | .die => if r.script = .alive then some { r with script := .dead } else none

/-- A hook thread that starts when the clock shows `now`. -/
def system (timeout now : Nat) : System Run Action := System.ofStep { now } (step timeout)

def Pc.isPolling : Pc → Bool
  | .polling _ => true
  | _ => false

/-- `try_wait` does not fail. -/
def Waits (r : Run) (a : Action) : Prop := r.pc.isPolling = true → a ≠ .thread false

instance (r : Run) (a : Action) : Decidable (Waits r a) :=
  inferInstanceAs (Decidable (r.pc.isPolling = true → a ≠ .thread false))

/-! ## The course of a run -/

/-- The trace of a thread that has spawned the script and polled it. -/
def polled (spawned : Nat) (polls : List Nat) : List (Nat × Event) :=
  (spawned, .spawn) :: polls.map fun t => (t, .poll)

/-- The loop has found the script alive, each time before the deadline. -/
structure Polling (timeout spawned : Nat) (polls : List Nat) : Prop where
  representable : spawned + timeout < secs (2 ^ 63)
  early : ∀ t ∈ polls, t < spawned + timeout

/-- What the trace looks like at each point of `run_child`. -/
inductive Course (timeout : Nat) : Run → Prop
  | opening {now : Nat} : Course timeout ⟨now, .opening, .absent, []⟩
  | spawning {now : Nat} : Course timeout ⟨now, .spawning, .absent, []⟩
  | notLaunched {now : Nat} : Course timeout ⟨now, .finished .notLaunched, .absent, []⟩
  | panicked {now spawned : Nat} {script : Script} (hs : script.unreaped = true)
      (hover : ¬spawned + timeout < secs (2 ^ 63)) :
      Course timeout ⟨now, .finished .panicked, script, [(spawned, .spawn)]⟩
  | polling {now spawned : Nat} {polls : List Nat} {script : Script}
      (hp : Polling timeout spawned polls) (hs : script.unreaped = true) :
      Course timeout ⟨now, .polling (spawned + timeout), script, polled spawned polls⟩
  | checking {now spawned t : Nat} {polls : List Nat} {script : Script}
      (hp : Polling timeout spawned polls) (hs : script.unreaped = true) (ht : t ≤ now) :
      Course timeout
        ⟨now, .checking (spawned + timeout), script, polled spawned polls ++ [(t, .poll)]⟩
  | sleeping {now spawned wake : Nat} {polls : List Nat} {script : Script}
      (hp : Polling timeout spawned polls) (hs : script.unreaped = true) :
      Course timeout ⟨now, .sleeping (spawned + timeout) wake, script, polled spawned polls⟩
  | waiting {now spawned t t' : Nat} {polls : List Nat} {script script' : Script}
      (hp : Polling timeout spawned polls) (hs : script.unreaped = true)
      (hs' : script'.unreaped = true) (hdue : spawned + timeout ≤ t') (ht' : t' ≤ now) :
      Course timeout ⟨now, .waiting (spawned + timeout), script,
        polled spawned polls ++ [(t, .poll), (t', .sigkill script')]⟩
  | exited {now spawned t : Nat} {polls : List Nat} (hp : Polling timeout spawned polls) :
      Course timeout ⟨now, .finished .exited, .reaped, polled spawned polls ++ [(t, .reap)]⟩
  | timedOut {now spawned t t' t'' : Nat} {polls : List Nat} {script' : Script}
      (hp : Polling timeout spawned polls) (hs' : script'.unreaped = true)
      (hdue : spawned + timeout ≤ t') :
      Course timeout ⟨now, .finished .timedOut, .reaped,
        polled spawned polls ++ [(t, .poll), (t', .sigkill script'), (t'', .reap)]⟩

theorem Polling.snoc {timeout spawned t : Nat} {polls : List Nat}
    (hp : Polling timeout spawned polls) (ht : t < spawned + timeout) :
    Polling timeout spawned (polls ++ [t]) := by
  refine ⟨hp.representable, fun t' ht' => ?_⟩
  rcases List.mem_append.mp ht' with ht' | ht'
  · exact hp.early t' ht'
  · rw [List.mem_singleton.mp ht']
    exact ht

theorem polled_snoc (spawned t : Nat) (polls : List Nat) :
    polled spawned (polls ++ [t]) = polled spawned polls ++ [(t, .poll)] := by
  unfold polled
  rw [List.map_append, List.cons_append]
  rfl

/-- The clock goes on. -/
theorem Course.tick {timeout : Nat} {r : Run} (h : Course timeout r) (d : Nat) :
    Course timeout { r with now := r.now + d } := by
  cases h with
  | opening => exact .opening
  | spawning => exact .spawning
  | notLaunched => exact .notLaunched
  | panicked hs hover => exact .panicked hs hover
  | polling hp hs => exact .polling hp hs
  | checking hp hs ht => exact .checking hp hs (Nat.le_add_right_of_le ht)
  | sleeping hp hs => exact .sleeping hp hs
  | waiting hp hs hs' hdue ht' => exact .waiting hp hs hs' hdue (Nat.le_add_right_of_le ht')
  | exited hp => exact .exited hp
  | timedOut hp hs' hdue => exact .timedOut hp hs' hdue

/-- The script dies. -/
theorem Course.die {timeout : Nat} {r : Run} (h : Course timeout r) (halive : r.script = .alive) :
    Course timeout { r with script := .dead } := by
  cases h with
  | opening | spawning | notLaunched | exited | timedOut => cases halive
  | panicked hs hover => exact .panicked rfl hover
  | polling hp hs => exact .polling hp rfl
  | checking hp hs ht => exact .checking hp rfl ht
  | sleeping hp hs => exact .sleeping hp rfl
  | waiting hp hs hs' hdue ht' => exact .waiting hp rfl hs' hdue ht'

/-- The thread takes a step. -/
theorem Course.thread {timeout : Nat} {r r' : Run} {ok : Bool} (h : Course timeout r)
    (hw : Waits r (.thread ok)) (hstep : threadStep timeout r ok = some r') :
    Course timeout r' := by
  cases h with
  | opening =>
    cases hstep
    cases ok with
    | false => exact .notLaunched
    | true => exact .spawning
  | @spawning now =>
    cases ok with
    | false =>
      cases hstep
      exact .notLaunched
    | true =>
      simp only [threadStep, instantAdd, if_true] at hstep
      -- `Instant + Duration` panics where the sum is not representable
      by_cases hrep : now + timeout < secs (2 ^ 63)
      · rw [if_pos hrep] at hstep
        cases hstep
        have hp : Polling timeout now [] := ⟨hrep, fun t ht => absurd ht List.not_mem_nil⟩
        exact Course.polling hp rfl
      · rw [if_neg hrep] at hstep
        cases hstep
        exact .panicked rfl hrep
  | notLaunched | panicked | exited | timedOut => cases hstep
  | @polling now spawned polls script hp hs =>
    cases ok with
    | false => exact absurd rfl (hw rfl)
    | true =>
      cases script with
      | absent | reaped => cases hs
      | alive =>
        cases hstep
        exact .checking hp rfl (Nat.le_refl now)
      | dead =>
        cases hstep
        exact .exited hp
  | @checking now spawned t polls script hp hs ht =>
    simp only [threadStep] at hstep
    -- the deadline is looked at only after a poll that found the script alive
    by_cases hdue : spawned + timeout ≤ now
    · rw [if_pos hdue] at hstep
      cases hstep
      show Course timeout ⟨now, .waiting (spawned + timeout), script,
        polled spawned polls ++ [(t, .poll)] ++ [(now, .sigkill script)]⟩
      rw [List.append_assoc]
      exact .waiting hp hs hs hdue (Nat.le_refl now)
    · rw [if_neg hdue] at hstep
      cases hstep
      rw [← polled_snoc]
      exact .sleeping (hp.snoc (by omega)) hs
  | @sleeping now spawned wake polls script hp hs =>
    simp only [threadStep] at hstep
    split at hstep
    · cases hstep
      exact .polling hp hs
    · cases hstep
  | @waiting now spawned t t' polls script script' hp hs hs' hdue ht' =>
    simp only [threadStep] at hstep
    split at hstep
    · cases hstep
      show Course timeout ⟨now, .finished .timedOut, .reaped,
        polled spawned polls ++ [(t, .poll), (t', .sigkill script')] ++ [(now, .reap)]⟩
      rw [List.append_assoc]
      exact .timedOut hp hs' hdue
    · cases hstep

theorem Course.step {timeout : Nat} {r r' : Run} {a : Action} (h : Course timeout r)
    (hw : Waits r a) (hstep : step timeout r a = some r') : Course timeout r' := by
  cases a with
  | thread ok => exact h.thread hw hstep
  | tick d =>
    cases hstep
    exact h.tick d
  | die =>
    simp only [RunChild.step] at hstep
    split at hstep
    · next halive =>
      cases hstep
      exact h.die halive
    · cases hstep

theorem reachable_course {timeout now : Nat} {r : Run}
    (h : (system timeout now).ReachableBy Waits r) : Course timeout r :=
  h.invariant .opening fun _ hc hw hstep => hc.step hw hstep

/-! ## Seen from the supervisor -/

/-- What `HookPc` says of the thread. -/
def Run.hookPc (r : Run) : HookPc :=
  match r.pc with
  | .opening | .spawning => .created
  | .polling deadline | .checking deadline | .sleeping deadline _ | .waiting deadline =>
    .running deadline
  | .finished how => .finished how

/-- In a supervisor with this hook thread and this clock, the step is not seen, or it is a
step of the hook thread. -/
theorem step_hookPc {timeout : Nat} {r r' : Run} {ok : Bool} (hc : Course timeout r)
    (hstep : threadStep timeout r ok = some r') :
    r'.hookPc = r.hookPc ∨
      ∀ (env : Env) (s : Sys) (h : HookId), (s.hooks h).pc = r.hookPc → s.now = r.now →
        env.config.hookTimeout = timeout →
          ∃ ans, s.hookStep env h ans = some (s.setHook h r'.hookPc) := by
  cases hc with
  | opening =>
    cases hstep
    cases ok with
    | true => exact .inl rfl
    | false =>
      refine .inr fun env s h hpc _ _ => ⟨.failed, ?_⟩
      unfold Sys.hookStep
      rw [hpc]
      rfl
  | @spawning now =>
    cases ok with
    | false =>
      cases hstep
      refine .inr fun env s h hpc _ _ => ⟨.failed, ?_⟩
      unfold Sys.hookStep
      rw [hpc]
      rfl
    | true =>
      refine .inr fun env s h hpc hnow htimeout => ⟨.done, ?_⟩
      -- both models add the timeout to the same clock and fail alike
      have hlaunched : Sys.launched now timeout = r'.hookPc := by
        simp only [threadStep, if_true] at hstep
        unfold Sys.launched
        cases hadd : instantAdd now timeout with
        | none =>
          rw [hadd] at hstep
          cases hstep
          rfl
        | some deadline =>
          rw [hadd] at hstep
          cases hstep
          rfl
      unfold Sys.hookStep
      rw [hpc, hnow, htimeout]
      exact congrArg (fun pc => some (s.setHook h pc)) hlaunched
  | notLaunched | panicked | exited | timedOut => cases hstep
  | @polling now spawned polls script hp hs =>
    cases ok with
    | false =>
      cases hstep
      refine .inr fun env s h hpc _ _ => ⟨.failed, ?_⟩
      unfold Sys.hookStep
      rw [hpc]
      rfl
    | true =>
      cases script with
      | absent | reaped => cases hs
      | alive =>
        cases hstep
        exact .inl rfl
      | dead =>
        cases hstep
        refine .inr fun env s h hpc _ _ => ⟨.done, ?_⟩
        unfold Sys.hookStep
        rw [hpc]
        rfl
  | checking hp hs ht =>
    simp only [threadStep] at hstep
    split at hstep <;> (cases hstep; exact .inl rfl)
  | sleeping hp hs =>
    simp only [threadStep] at hstep
    split at hstep
    · cases hstep
      exact .inl rfl
    · cases hstep
  | @waiting now spawned t t' polls script script' hp hs hs' hdue ht' =>
    simp only [threadStep] at hstep
    split at hstep
    · cases hstep
      refine .inr fun env s h hpc hnow _ => ⟨.killed true, ?_⟩
      -- the kill came after the deadline, and the clock has only moved on since
      have hle : spawned + timeout ≤ s.now := by
        rw [hnow]
        exact Nat.le_trans hdue ht'
      unfold Sys.hookStep
      rw [hpc]
      exact if_pos hle
    · cases hstep

end EasyTierMac.Supervisor.RunChild
