import EasyTierMac.App.Moves

/-!
# The app and the death of its core

The core of a connection dies when `core_exited` is delivered, or when the control connection
is lost and comes back with `core: "stopped"`. `Noticed` says that the app does not go on
showing such a connection.

It does (`dead_core_shown`). `handleCoreExit` looks at `connectionState`, and between the
success of `bridge.connect` and the next turn of the task that waits for it this is still
`.connecting`: the event is dropped, and then the task shows `.connected`. And `handle` does
not look at the `core` field of `connected` at all. As long as neither happens (`Heeded`),
every death is noticed.
-/

namespace EasyTierMac.App

open Transition (System)

/-! ## The record of a run -/

/-- What a run has seen of the death of the core. -/
structure Deaths where
  /-- The control connection has been lost at some time. -/
  lost : Bool := false
  /-- For each event in the stream: it reports a death, and was delivered after the last
  success of `bridge.connect`. -/
  reports : List Bool := []
  /-- Such a report has been handled since the last success of `bridge.connect`. -/
  dead : Bool := false
  deriving DecidableEq, Repr

/-- The event reports that the core is dead. -/
def BridgeEvent.reportsDeath (lost : Bool) : BridgeEvent → Bool
  | .coreExited _ _ => true
  | .connected _ core _ => lost && core == "stopped"
  | _ => false

/-- What a step adds to the record. -/
def noteDeath (s : State) (a : Action) (r : Deaths) : Deaths :=
  match a with
  | .deliver ev =>
    { r with lost := r.lost || ev = .disconnected, reports := r.reports ++ [ev.reportsDeath r.lost] }
  | .handle => { r with reports := r.reports.tail, dead := r.dead || r.reports.headD false }
  | .perform reply =>
    if (succeeding s.main reply).isSome then
      { r with reports := r.reports.map fun _ => false, dead := false }
    else r
  | _ => r

/-- The app with the record of its run. -/
def watched (d : Defaults) : System (State × Deaths) Action := (app d).recording {} noteDeath

/-! ## The property and the race -/

/-- A death that has been handled is not followed by `.connected`, once no operation is
suspended and unless another `bridge.connect` has succeeded. -/
def Noticed (p : State × Deaths) : Prop :=
  p.2.dead = true → (∀ t ∈ p.1.main.tasks, t.code.operation = none) →
    p.1.main.heap.connectionState ≠ .connected

/-- The task holds a success that it has not shown yet, and will show. -/
def Publishing (s : Main) (t : Task Code) : Prop :=
  t.code.publishes = true ∧ (t.code.operation = some .restart → t.id ∉ s.cancelled)

instance : ∀ s t, Decidable (Publishing s t) := fun s t =>
  inferInstanceAs (Decidable (t.code.publishes = true ∧
    (t.code.operation = some .restart → t.id ∉ s.cancelled)))

/-- The handler of the event does not pass over a connection that is shown. -/
def Heeds (m : AppModel) : BridgeEvent → Prop
  | .coreExited _ _ => m.connectionState = .connected → m.runningToml ≠ none
  | _ => m.connectionState ≠ .connected

instance (m : AppModel) : ∀ ev, Decidable (Heeds m ev)
  | .coreExited _ _ =>
    inferInstanceAs (Decidable (m.connectionState = .connected → m.runningToml ≠ none))
  | .connected _ _ _ | .disconnected | .coreStarted _ _ | .coreStopped _ | .busy _ | .kicked
  | .error _ _ | .unknown _ | .malformed _ =>
    inferInstanceAs (Decidable (m.connectionState ≠ .connected))

/-- A report of a death is handled only when no task holds a success that it has yet to show,
and not by a handler that passes over a connection that is shown. -/
def Heeded (p : State × Deaths) (a : Action) : Prop :=
  a = .handle → p.2.reports.head? = some true →
    (∀ t ∈ p.1.main.tasks, ¬ Publishing p.1.main t) ∧
      ∀ ev ∈ p.1.events.head?, Heeds p.1.main.heap ev

instance : ∀ p a, Decidable (Heeded p a) := fun p a =>
  inferInstanceAs (Decidable (a = .handle → p.2.reports.head? = some true →
    (∀ t ∈ p.1.main.tasks, ¬ Publishing p.1.main t) ∧ ∀ ev ∈ p.1.events.head?, Heeds p.1.main.heap ev))

/-! ## Every step -/

/-- After a death the connection is not shown, and no task is about to show it. -/
def Buried (p : State × Deaths) : Prop :=
  p.2.dead = true → p.1.main.heap.connectionState ≠ .connected ∧
    ∀ t ∈ p.1.main.tasks, ¬ Publishing p.1.main t

section

variable {s m : Main} {who : Option Nat} {c : Option Code} {new : List Code}

/-- A turn that ends with no success in hand gives no task one. -/
theorem not_publishing_of_turn (ht : s.Turn who c new m)
    (hc : ∀ c', c = some c' → c'.publishes = false) (hnew : ∀ c' ∈ new, c'.publishes = false)
    (hcan : ∀ i ∈ s.cancelled, i ∈ m.cancelled) (h : ∀ t ∈ s.tasks, ¬ Publishing s t) :
    ∀ t ∈ m.tasks, ¬ Publishing m t := by
  intro t hmem hpub
  rcases ht.cases hmem with ⟨hold, -⟩ | ⟨-, hown⟩ | hcreated
  · exact h t hold ⟨hpub.1, fun hr hin => hpub.2 hr (hcan _ hin)⟩
  · exact absurd hpub.1 (by rw [hc _ hown]; decide)
  · exact absurd hpub.1 (by rw [hnew _ hcreated.mem]; decide)

end

theorem noteDeath_quiet {s : State} {a : Action} (ha : a.isQuiet = true) (r : Deaths) :
    noteDeath s a r = r := by
  cases a with
  | deliver ev | handle | perform reply | run id file now => cases ha
  | _ => rfl

variable {s s' : State} {a : Action} {r : Deaths}

theorem Buried.handle {ev : BridgeEvent} {events : List BridgeEvent} {m : Main}
    (h : Buried (s, r)) (hp : Heeded (s, r) .handle) (he : s.events = ev :: events)
    (hh : Handled s.main m ev) :
    Buried ({ main := m, events := events, prompting := ev.isBusy }, noteDeath s .handle r) := by
  intro hdead
  have hclear : (∀ t ∈ s.main.tasks, ¬ Publishing s.main t) ∧
      m.heap.connectionState ≠ .connected := by
    cases hr : r.dead with
    | true =>
      obtain ⟨hstate, hpub⟩ := h hr
      exact ⟨hpub, fun hs' => hstate (hh.shown hs').1⟩
    | false =>
      -- the report that is handled now is the first one
      have hhead : r.reports.head? = some true := by
        have hd : (r.dead || r.reports.headD false) = true := hdead
        rw [hr, Bool.false_or, List.headD_eq_head?_getD] at hd
        cases hq : r.reports.head? with
        | none => simp [hq] at hd
        | some b => simpa [hq] using hd
      obtain ⟨hpub, hheeds⟩ := hp rfl hhead
      have hev : Heeds s.main.heap ev := hheeds ev (by simp [he])
      refine ⟨hpub, fun hs' => ?_⟩
      obtain ⟨hstate, htoml⟩ := hh.shown hs'
      cases ev with
      | coreExited code signal => exact hev hstate (htoml code signal rfl)
      | _ => exact hev hstate
  obtain ⟨new, ht, hnew⟩ := hh.turn
  exact ⟨hclear.2, not_publishing_of_turn ht (by simp) hnew (fun _ => hh.cancelled_mono) hclear.1⟩

theorem Buried.perform {reply : Reply} {id : Nat} {queue : List (Option Nat)} {c c' : Code}
    {m : Main} (h : Buried (s, r)) (hq : s.main.queue = some id :: queue)
    (hc : s.main.code? id = some c) (hc' : c.answered reply = some c')
    (ht : s.main.Turn (some id) (some c') [] m) (hs : Same s.main m) :
    Buried ({ s with main := m }, noteDeath s (.perform reply) r) := by
  have hsucc : succeeding s.main reply = if c.connects reply then some id else none :=
    succeeding_eq hq hc
  intro hdead
  have hconn : c.connects reply = false := by
    refine eq_false_of_ne_true fun htrue => ?_
    simp [noteDeath, hsucc, htrue] at hdead
  obtain ⟨hstate, hpub⟩ := h (by simpa [noteDeath, hsucc, hconn] using hdead)
  refine ⟨fun hs' => hstate (hs.state.symm.trans hs'), ?_⟩
  refine not_publishing_of_turn ht (fun d hd => ?_) (by simp) (fun i hi => hs.cancelled ▸ hi) hpub
  cases hd
  exact (answered_publishes hc').trans hconn

theorem Buried.run {id : Nat} {c : Code} {m : Main} (h : Buried (s, r))
    (hc : s.main.code? id = some c) (hran : Ran s.main id m c) :
    Buried ({ s with main := m }, r) := by
  intro hdead
  obtain ⟨hstate, hpub⟩ := h hdead
  obtain ⟨d, new, ht, hd, hnew⟩ := hran.turn
  refine ⟨fun hs' => ?_, not_publishing_of_turn ht hd hnew (fun _ => hran.cancelled_mono) hpub⟩
  rcases hran.shown hs' with hs | hown
  · exact hstate hs
  · exact hpub _ (Actor.mem_of_code? hc) hown

theorem Buried.step (h : Buried (s, r)) (hw : s.main.WellFormed) (hp : Heeded (s, r) a)
    (hs : step s a = some s') : Buried (s', noteDeath s a r) := by
  cases step_move hw hs with
  | quiet ha hnew ht hsame =>
    rw [noteDeath_quiet ha]
    intro hdead
    obtain ⟨hstate, hpub⟩ := h hdead
    refine ⟨fun hs' => hstate (hsame.state.symm.trans hs'), ?_⟩
    exact not_publishing_of_turn ht (by simp) (fun c hc => hnew.publishes hc)
      (fun i hi => hsame.cancelled ▸ hi) hpub
  | deliver => exact h
  | handle he hh => exact h.handle hp he hh
  | perform hq hc hc' ht hsame => exact h.perform hq hc hc' ht hsame
  | run hc hran => exact h.run hc hran

/-! ## Every run -/

variable {d : Defaults}

theorem reachable_of_watched {P : State × Deaths → Action → Prop} {p : State × Deaths}
    (h : (watched d).ReachableBy P p) : (app d).Reachable p.1 :=
  System.ReachableBy.of_recording (P := fun _ _ => True) (h.mono fun _ _ _ => trivial)

/-- **Every death is noticed**, in every run in which each report of a death is heeded. -/
theorem death_noticed {p : State × Deaths} (h : (watched d).ReachableBy Heeded p) : Noticed p := by
  have hburied : Buried p := by
    refine h.invariant (I := Buried) (fun hdead => by cases hdead) ?_
    rintro ⟨s, r⟩ a ⟨s', r'⟩ hr hb hp ⟨hs, rfl⟩
    exact hb.step (reachable_wellFormed (reachable_of_watched hr)) hp hs
  intro hdead _
  exact (hburied hdead).1

namespace Trial

/-- The supervisor has crashed and is back, without the core. -/
def supervisorBack : List Action :=
  [.deliver .disconnected, .handle, .deliver (.connected "1" "stopped" none), .handle]

/-- An attempt of the restart task `id` that fails. -/
def attemptFails (id : Nat) : List Action :=
  [.run id none 0, .perform (.message (some "no core")), .run id none 0]

end Trial

/-- A run of the watched app that evaluates. -/
theorem exists_watched (d : Defaults) (P : State × Deaths → Action → Prop)
    [∀ p a, Decidable (P p a)] (l : List Action) (q : State × Deaths → Bool)
    (h : (System.runBy (System.recordStep step noteDeath) P (start d, {}) l).any q = true) :
    ∃ p, (watched d).ReachableBy P p ∧ q p = true := by
  have hrec : watched d = .ofStep (start d, {}) (System.recordStep step noteDeath) :=
    System.recording_ofStep
  rw [hrec]
  exact System.exists_reachableBy_of_runBy h

/-- A run of the watched app, by clicks on the pill, to a connection that is shown although its
core is dead. -/
theorem exists_unnoticed (l : List Action) (lost : Bool)
    (h : (System.runBy (System.recordStep step noteDeath) (fun p a => ByPill p.1 a) (start {}, {}) l).any
      (fun p => decide (p.2.dead = true ∧ p.2.lost = lost ∧
        (∀ t ∈ p.1.main.tasks, t.code.operation = none) ∧
        p.1.main.heap.connectionState = .connected)) = true) :
    ∃ p, (watched {}).ReachableBy (fun p a => ByPill p.1 a) p ∧ p.2.lost = lost ∧ ¬ Noticed p := by
  obtain ⟨p, hp, hq⟩ := exists_watched {} (fun p a => ByPill p.1 a) l _ h
  obtain ⟨hdead, hlost, hop, hstate⟩ := of_decide_eq_true hq
  exact ⟨p, hp, hlost, fun hn => hn hdead hop hstate⟩

/-- The app shows a connection whose core is dead. The exit is reported before the task that
connects has its next turn; or the control connection is lost and the supervisor comes back
without the core. -/
theorem dead_core_shown :
    (∃ p, (watched {}).ReachableBy (fun p a => ByPill p.1 a) p ∧ p.2.lost = false ∧ ¬ Noticed p) ∧
      ∃ p, (watched {}).ReachableBy (fun p a => ByPill p.1 a) p ∧ p.2.lost = true ∧ ¬ Noticed p :=
  ⟨exists_unnoticed (Trial.connecting ++ Trial.coreExited ++ [.run 2 none 0]) false (by decide +kernel),
    exists_unnoticed (Trial.connecting ++ [.run 2 none 0] ++ Trial.supervisorBack) true
      (by decide +kernel)⟩

/-- The core exits while the connection is shown, and three restarts fail. -/
theorem death_noticed_restarts : ∃ p, (watched {}).ReachableBy Heeded p ∧ p.2.dead = true ∧
    (∀ t ∈ p.1.main.tasks, t.code.operation = none) ∧
    p.1.main.heap.connectionState ≠ .connected := by
  obtain ⟨p, hp, hq⟩ := exists_watched {} Heeded
    (Trial.connecting ++ [.run 2 none 0] ++ Trial.coreExited ++ [.run 5 none 0] ++
      Trial.attemptFails 5 ++ Trial.attemptFails 5 ++ Trial.attemptFails 5)
    (fun p => decide (p.2.dead = true ∧ ∀ t ∈ p.1.main.tasks, t.code.operation = none))
    (by decide +kernel)
  obtain ⟨hdead, hop⟩ := of_decide_eq_true hq
  exact ⟨p, hp, hdead, hop, death_noticed hp hdead hop⟩

end EasyTierMac.App
