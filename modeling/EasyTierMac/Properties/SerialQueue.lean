import EasyTierMac.App.Turns
import EasyTierMac.App.Moves

/-!
# The serial queue never loses a call, and never holds a task up for good

`BridgeClient` runs all its calls on one queue, and a task that awaits one is stuck until the
call returns. In every reachable state the calls on the queue are those of the tasks that wait,
one for each (`reachable_serial`): a call without its task would answer nobody, a task without
its call would wait forever.

Every task that does not wait can take its turn (`turn_isSome`), and the first call can always
return (`serve`), so the queue can be run empty (`queue_drains`). It is first come, first
served: whatever else happens, a task has its reply after the calls ahead of it and its own
(`first_come_first_served`).
-/

namespace EasyTierMac.App

open Transition (System)
open Actor (Serial)

/-! ## The discipline -/

theorem start_serial (d : Defaults) : Serial Code.waits (start d).main := by
  refine ⟨start_wellFormed d, ?_, ?_⟩
  · intro t ht
    show List.count (some t.id) [] = _
    simp only [start, onBecomeActive, Actor.spawn, List.nil_append, List.cons_append, List.mem_cons,
      List.not_mem_nil, or_false] at ht
    rcases ht with rfl | rfl
    · rfl
    · rfl
  · intro i hi
    exact absurd hi List.not_mem_nil

variable {s s' : State} {a : Action}

/-- Only a task that does not wait has a turn. -/
theorem turn_waits {m m' : Main} {id : Nat} {file : Option String} {now : ℚ} {c : Code}
    (h : turn m id file now c = some m') : c.waits = false := by
  cases c with
  | connect pc => cases pc <;> first | rfl | cases h
  | disconnect pc => cases pc <;> first | rfl | cases h
  | revalidate pc => cases pc <;> first | rfl | cases h
  | refresh pc => cases pc <;> first | rfl | cases h
  | install pc => cases pc <;> first | rfl | cases h
  | uninstall pc => cases pc <;> first | rfl | cases h
  | restart toml pc => cases pc <;> first | rfl | cases h
  | poll pc => cases pc <;> first | rfl | cases h

theorem step_serial (h : Serial Code.waits s.main) (hs : step s a = some s') :
    Serial Code.waits s'.main := by
  rcases step_queue hs with ⟨r, i, queue, c, c', -, hq, hmem, hc', hm⟩ | ⟨queue, -, hq, hm⟩ |
    ⟨i, c, -, hmem, hstops, file, now, hturn⟩ | ⟨-, hworks⟩
  · rw [hm]
    exact h.returned hmem hq (answered_waits hc').2
  · rw [hm]
    exact h.dropped hq
  · exact h.stops hmem (turn_waits hturn) hstops
  · exact h.works hworks

theorem reachable_serial {d : Defaults} {P : State → Action → Prop}
    (h : (app d).ReachableBy P s) : Serial Code.waits s.main :=
  h.invariant (I := fun s => Serial Code.waits s.main) (start_serial d)
    fun _ hserial _ hs => step_serial hserial hs

/-! ## Progress -/

/-- A task that does not wait can have its turn. -/
theorem turn_isSome {m : Main} {id : Nat} {file : Option String} {now : ℚ} {c : Code}
    (h : c.waits = false) : (turn m id file now c).isSome = true := by
  cases c with
  | connect pc =>
    cases pc with
    | start =>
      simp only [turn, connect]
      split
      · cases file <;> rfl
      · rfl
    | validated text v =>
      simp only [turn, connect]
      split <;> rfl
    | connected text err => cases err <;> rfl
    | validate text => cases h
    | connect text => cases h
  | disconnect pc =>
    cases pc with
    | start =>
      simp only [turn, disconnect]
      split <;> rfl
    | disconnected => rfl
    | disconnect => cases h
  | revalidate pc =>
    cases pc with
    | start => cases file <;> rfl
    | validated text v =>
      simp only [turn, revalidate]
      split <;> rfl
    | validate text => cases h
  | refresh pc =>
    cases pc with
    | start => rfl
    | answered status => cases status <;> rfl
    | status => cases h
  | install pc =>
    cases pc with
    | start =>
      simp only [turn, installSupervisor]
      split <;> rfl
    | installed err => cases err <;> rfl
    | install => cases h
  | uninstall pc =>
    cases pc with
    | start =>
      simp only [turn, uninstallSupervisor]
      split <;> rfl
    | installed err => cases err <;> rfl
    | install => cases h
  | restart toml pc =>
    cases pc with
    | start => rfl
    | sleep =>
      simp only [turn, restart]
      split <;> rfl
    | connected err =>
      simp only [turn, restart]
      split
      · rfl
      · cases err <;> rfl
    | connect => cases h
  | poll pc =>
    cases pc with
    | start | sleep =>
      simp only [turn, poll]
      split
      · rfl
      · split <;> rfl
    | answered env =>
      simp only [turn, poll]
      split <;> rfl
    | status => cases h

/-- Whatever the first call on the queue is, it can return. -/
theorem serve (h : Serial Code.waits s.main) {i : Option Nat} {queue : List (Option Nat)}
    (hq : s.main.queue = i :: queue) :
    ∃ a s', a.serves = true ∧ step s a = some s' ∧ s'.main.queue = queue := by
  cases i with
  | none =>
    refine ⟨.performPosted, s.setMain { s.main with queue := queue }, rfl, ?_, rfl⟩
    simp only [step, performPosted, hq, Option.map_some]
  | some i =>
    have hhead : some i ∈ s.main.queue := by
      rw [hq]
      exact List.mem_cons_self
    obtain ⟨⟨j, c⟩, hmem, hid⟩ := h.owned i hhead
    have hij : j = i := hid
    subst hij
    have hwaits : c.waits = true := (h.mem_iff hmem).mp hhead
    obtain ⟨r, c', hc'⟩ := exists_answered hwaits
    have hcode := Actor.code?_of_mem h.toWellFormed hmem
    refine ⟨.perform r, s.setMain ({ s.main with queue := queue }.suspend j c'), rfl, ?_, rfl⟩
    simp only [step, perform, hq, hcode, Option.bind_some, hc', Option.map_some]

/-- How many calls the queue has run. -/
def served (_ : State) (a : Action) (n : Nat) : Nat := if a.serves then n + 1 else n

/-- The app with the number of calls that its queue has run. -/
def serving (d : Defaults) : System (State × Nat) Action := (app d).recording 0 served

/-- The queue alone can go on until it is empty: one step for each call. -/
theorem drain (d : Defaults) : ∀ (queue : List (Option Nat)) (s : State) (n : Nat),
    Serial Code.waits s.main → s.main.queue = queue →
      ∃ s', (serving d).PathBy (fun _ a => a.serves = true) (s, n) (s', n + queue.length) ∧
        s'.main.queue = [] ∧ Serial Code.waits s'.main
  | [], s, n, h, hq => ⟨s, .refl, hq, h⟩
  | i :: queue, s, n, h, hq => by
    obtain ⟨a, s₁, ha, hs, hq₁⟩ := serve h hq
    obtain ⟨s', hpath, hempty, hserial⟩ := drain d queue s₁ (n + 1) (step_serial h hs) hq₁
    have hstep : (serving d).step (s, n) a (s₁, n + 1) := by
      refine ⟨hs, ?_⟩
      show n + 1 = served s a n
      unfold served
      rw [if_pos ha]
    refine ⟨s', ?_, hempty, hserial⟩
    have hlen : n + (i :: queue).length = n + 1 + queue.length := by
      rw [List.length_cons]
      omega
    rw [hlen]
    exact System.PathBy.trans (.tail .refl ha hstep) hpath

/-- **No task is stuck.** In every reachable state the queue holds one call for each task that
waits and no other call that somebody waits for; run alone, it is empty after as many steps as
it has calls, and then every task can have its turn. -/
theorem queue_drains (d : Defaults) (s : State) (h : (app d).Reachable s) :
    ((∀ t ∈ s.main.tasks, s.main.queue.count (some t.id) = if t.code.waits then 1 else 0) ∧
      ∀ i, some i ∈ s.main.queue → ∃ t ∈ s.main.tasks, t.id = i ∧ t.code.waits = true) ∧
    ∃ s', (serving d).PathBy (fun _ a => a.serves = true) (s, 0) (s', s.main.queue.length) ∧
      s'.main.queue = [] ∧
      ∀ t ∈ s'.main.tasks, ∀ file now, (step s' (.run t.id file now)).isSome = true := by
  have hserial := reachable_serial h
  refine ⟨⟨?_, ?_⟩, ?_⟩
  · intro t ht
    rw [hserial.once t ht]
    cases t.code.waits with
    | true => rfl
    | false => rfl
  · intro i hi
    obtain ⟨t, ht, rfl⟩ := hserial.owned i hi
    exact ⟨t, ht, rfl, (hserial.mem_iff ht).mp hi⟩
  · obtain ⟨s', hpath, hempty, hserial'⟩ := drain d s.main.queue s 0 hserial rfl
    rw [Nat.zero_add] at hpath
    refine ⟨s', hpath, hempty, ?_⟩
    intro t ht file now
    have hidle : t.code.waits = false := by
      have hone := hserial'.once t ht
      rw [hempty] at hone
      cases hc : t.code.waits with
      | true => simp [hc] at hone
      | false => rfl
    have hcode : s'.main.code? t.id = some t.code := Actor.code?_of_mem hserial'.toWellFormed ht
    simp only [step, hcode, Option.bind_some, Option.isSome_map]
    exact turn_isSome hidle

namespace Trial

/-- `AppModel.init` has created a revalidation and a refresh, and both wait for the bridge. -/
def asking : List Action := [.run 0 (some "config") 0, .run 1 none 0]

end Trial

/-- Two calls are on the queue right after the start. -/
theorem queue_drains_asking : ∃ s s', (app {}).Reachable s ∧ s.main.queue = [some 0, some 1] ∧
    (serving {}).PathBy (fun _ a => a.serves = true) (s, 0) (s', 2) ∧ s'.main.queue = [] := by
  have hrun : (System.runBy step (fun _ _ => True) (start {}) Trial.asking).any
      (fun s => decide (s.main.queue = [some 0, some 1])) = true := by
    decide +kernel
  obtain ⟨s, hr, hq⟩ := System.exists_reachableBy_of_runBy hrun
  have hqueue := of_decide_eq_true hq
  obtain ⟨-, s', hpath, hempty, -⟩ := queue_drains {} s hr
  rw [hqueue] at hpath
  exact ⟨s, s', hr, hqueue, hpath, hempty⟩

/-! ## First come, first served -/

/-- The place of a task's call on the queue. -/
def place (s : State) (i : Nat) : Nat := s.main.queue.idxOf (some i)

/-- A call moves up by one when the queue runs a call, and stays where it is otherwise. -/
theorem step_place (h : Serial Code.waits s.main) {i : Nat} (hi : some i ∈ s.main.queue)
    (hs : step s a = some s') :
    some i ∈ s'.main.queue ∧ place s i = place s' i + (if a.serves then 1 else 0) ∨
      some i ∉ s'.main.queue ∧ place s i = 0 ∧ a.serves = true := by
  -- nothing is put ahead of a call
  have hkeep (ha : a.serves = false) (hp : s.main.queue <+: s'.main.queue) :
      some i ∈ s'.main.queue ∧ place s i = place s' i + (if a.serves then 1 else 0) := by
    obtain ⟨l, hl⟩ := hp
    refine ⟨hl ▸ List.mem_append_left _ hi, ?_⟩
    unfold place
    rw [← hl, List.idxOf_append_of_mem hi, ha]
    rfl
  have hpop {x : Option Nat} {queue : List (Option Nat)} (ha : a.serves = true)
      (hq : s.main.queue = x :: queue) (hq' : s'.main.queue = queue) :
      some i ∈ s'.main.queue ∧ place s i = place s' i + (if a.serves then 1 else 0) ∨
        some i ∉ s'.main.queue ∧ place s i = 0 ∧ a.serves = true := by
    unfold place
    rw [hq, hq', ha]
    by_cases hx : x = some i
    · right
      rw [hx, List.idxOf_cons_self]
      refine ⟨?_, rfl, rfl⟩
      -- the task has one call only
      intro hmem
      obtain ⟨t, ht, rfl⟩ := h.owned i hi
      have hone := h.once t ht
      have hpos := List.count_pos_iff.mpr hmem
      have hle : t.code.waits.toNat ≤ 1 := Bool.toNat_le _
      rw [hq, hx, List.count_cons_self] at hone
      omega
    · left
      rw [List.idxOf_cons_ne _ hx]
      refine ⟨?_, rfl⟩
      rw [hq] at hi
      exact (List.mem_cons.mp hi).resolve_left fun he => hx he.symm
  rcases step_queue hs with ⟨r, j, queue, c, c', rfl, hq, -, -, hm⟩ | ⟨queue, rfl, hq, hm⟩ |
    ⟨j, c, ha, -, hstops, -⟩ | ⟨ha, hworks⟩
  · exact hpop rfl hq (by rw [hm]; rfl)
  · exact hpop rfl hq (by rw [hm])
  · exact .inl (hkeep ha hstops.queue_prefix)
  · obtain ⟨-, n, hq⟩ := hworks.frame
    exact .inl (hkeep ha ⟨_, hq.symm⟩)

end EasyTierMac.App
