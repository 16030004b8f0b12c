import EasyTierMac.App.Moves

/-!
# Operations that a takeover has overtaken

`kicked` sets `.disconnected` while an operation may still be suspended. `Unpublished` says
that such an operation does not show its result afterwards: it does not set `.connected`, it
leaves a newer operation alone, and only one operation at a time can write `connectionState`.

The restart task keeps to this, since it looks at its cancellation. `connect()` has no such
check and shows its success (`kicked_connect_shown`). As long as no `connect()` is suspended
when `kicked` is handled, and `connect()` and `disconnect()` do not begin while the other one
is suspended (`Undisturbed`), no operation shows a result that was overtaken.
-/

namespace EasyTierMac.App

open Transition (System)

/-! ## The record of a run -/

/-- What a run has seen of takeovers. -/
structure Kicks where
  /-- For each `kicked` that has been handled, the operations that were suspended then. -/
  overtaken : List (List Nat) := []
  /-- Since the last one, a `bridge.connect` has succeeded that none has overtaken. -/
  again : Bool := false
  deriving DecidableEq, Repr

/-- The operations that are suspended. -/
def operations (s : Main) : List Nat :=
  (s.tasks.filter fun t => t.code.operation.isSome).map Task.id

/-- What a step adds to the record. -/
def noteKick (s : State) (a : Action) (r : Kicks) : Kicks :=
  match a with
  | .handle =>
    if s.events.head? = some .kicked then
      { overtaken := operations s.main :: r.overtaken, again := false }
    else r
  | .perform reply =>
    { r with again := r.again || (succeeding s.main reply).any fun id => ∀ k ∈ r.overtaken, id ∉ k }
  | _ => r

/-- The app with the record of its run. -/
def contested (d : Defaults) : System (State × Kicks) Action := (app d).recording {} noteKick

/-! ## The property and the race -/

/-- The task is an operation that can write `connectionState`: the restart task does not once
it has been cancelled. -/
def Writes (s : Main) (t : Task Code) : Prop :=
  t.code.operation ≠ none ∧ (t.code.operation = some .restart → t.id ∉ s.cancelled)

/-- No operation shows a result that was overtaken. `P` says which steps are admitted. -/
structure Unpublished (P : State → Action → Prop) (p : State × Kicks) : Prop where
  /-- An operation that a kick has overtaken does not set `.connected` when it resumes, and
  does not touch `connectionState` or the operation once a newer one has begun. -/
  resumed : ∀ k ∈ p.2.overtaken, ∀ id ∈ k, ∀ file now s', P p.1 (.run id file now) →
    step p.1 (.run id file now) = some s' →
    (s'.main.heap.connectionState = .connected → p.1.main.heap.connectionState = .connected) ∧
      ∀ u ∈ p.1.main.tasks, u.code.operation ≠ none → u.id ∉ k →
        s'.main.heap.connectionState = p.1.main.heap.connectionState ∧ u ∈ s'.main.tasks ∧
          (Writes p.1.main u → Writes s'.main u)
  /-- At most one operation can write `connectionState`. -/
  one : ∀ t ∈ p.1.main.tasks, ∀ u ∈ p.1.main.tasks, Writes p.1.main t → Writes p.1.main u → t = u
  /-- An operation that changes `connectionState` when it resumes is that one. -/
  writes : ∀ t ∈ p.1.main.tasks, t.code.operation ≠ none → ∀ file now s',
    P p.1 (.run t.id file now) → step p.1 (.run t.id file now) = some s' →
    s'.main.heap.connectionState ≠ p.1.main.heap.connectionState → Writes p.1.main t
  /-- A connection that is shown was made after the last takeover. -/
  shown : p.1.main.heap.connectionState = .connected → p.2.again = true

def Suspended (s : Main) (op : Operation) : Prop := ∃ t ∈ s.tasks, t.code.operation = some op

instance : ∀ s op, Decidable (Suspended s op) := fun s op =>
  inferInstanceAs (Decidable (∃ t ∈ s.tasks, t.code.operation = some op))

/-- The code begins, or looks at the connection for the first time, with no other operation in
its way. -/
def Code.Unhindered (s : Main) (id : Nat) : Code → Prop
  | .connect .start => s.heap.connectionState = .disconnected → ¬ Suspended s .disconnect
  | .disconnect .start => s.heap.connectionState = .connecting → ¬ Suspended s .connect
  | .restart _ .start => id ∈ s.cancelled → s.heap.restartFailures < maxAutoRestart
  | _ => True

/-- `kicked` is not handled while a `connect()` is suspended; `connect()` does not begin while
a `disconnect()` is suspended, nor the other way around; and a restart task that is cancelled
before its first turn does not find the failures used up by another one. -/
def Undisturbed (s : State) : Action → Prop
  | .handle => s.events.head? = some .kicked → ¬ Suspended s.main .connect
  | .run id _ _ => ∀ c ∈ s.main.code? id, c.Unhindered s.main id
  | _ => True

instance (s : Main) (id : Nat) : ∀ c : Code, Decidable (c.Unhindered s id)
  | .connect .start => inferInstanceAs
      (Decidable (s.heap.connectionState = .disconnected → ¬ Suspended s .disconnect))
  | .disconnect .start => inferInstanceAs
      (Decidable (s.heap.connectionState = .connecting → ¬ Suspended s .connect))
  | .restart _ .start => inferInstanceAs
      (Decidable (id ∈ s.cancelled → s.heap.restartFailures < maxAutoRestart))
  | .connect (.validate _) | .connect (.validated _ _) | .connect (.connect _)
  | .connect (.connected _ _) | .disconnect .disconnect | .disconnect .disconnected
  | .restart _ .sleep | .restart _ .connect | .restart _ (.connected _)
  | .revalidate _ | .refresh _ | .install _ | .uninstall _ | .poll _ => isTrue trivial

instance (s : State) : ∀ a, Decidable (Undisturbed s a)
  | .handle => inferInstanceAs
      (Decidable (s.events.head? = some .kicked → ¬ Suspended s.main .connect))
  | .run id _ _ => inferInstanceAs (Decidable (∀ c ∈ s.main.code? id, c.Unhindered s.main id))
  | .toggle | .becomeActive | .openSettings | .install | .uninstall | .setAutoRestart _
  | .setAutoConnectOnLaunch _ | .launchAtLoginFailed _ | .answerPrompt _ | .deliver _
  | .perform _ | .performPosted => isTrue trivial

/-! ## Every step -/

/-- The state that goes with an operation that can write it. -/
def Fits (s : Main) (t : Task Code) : Prop :=
  match t.code.operation with
  | some .connect => s.heap.connectionState = .connecting
  | some .disconnect =>
    s.heap.connectionState = .disconnecting ∨ s.heap.connectionState = .disconnected
  | some .restart => s.heap.connectionState = .connecting ∧ s.heap.restartTask = some t.id
  | none => True

/-- An overtaken operation has nothing left to show. -/
def Harmless (s : Main) (t : Task Code) : Prop :=
  t.code.operation = some .restart ∧ t.id ∈ s.cancelled ∨
    t.code.operation = some .disconnect ∧ s.heap.connectionState = .disconnected

/-- The invariant: one operation at a time, and it fits the state. -/
structure Sole (s : Main) (r : Kicks) : Prop where
  fits : ∀ t ∈ s.tasks, Writes s t → Fits s t
  one : ∀ t ∈ s.tasks, ∀ u ∈ s.tasks, Writes s t → Writes s u → t = u
  lt : ∀ k ∈ r.overtaken, ∀ id ∈ k, id < s.next
  harmless : ∀ k ∈ r.overtaken, ∀ t ∈ s.tasks, t.id ∈ k → Harmless s t
  shown : s.heap.connectionState = .connected → r.again = true
  held : ∀ t ∈ s.tasks, t.code.publishes = true → Writes s t → r.again = true


section

variable {s m : Main} {r r' : Kicks} {who : Option Nat} {d : Option Code} {new : List Code}
  {t : Task Code}

theorem Writes.of_mono (h : Writes m t) (hcan : ∀ i ∈ s.cancelled, i ∈ m.cancelled) : Writes s t :=
  ⟨h.1, fun hop hin => h.2 hop (hcan _ hin)⟩

/-- `Writes`, `Fits` and `Harmless` only look at the operation of a task. -/
theorem Writes.of_same {u : Task Code} (h : Writes m t) (hs : Same s m)
    (hid : u.id = t.id) (hop : u.code.operation = t.code.operation) : Writes s u := by
  unfold Writes at h ⊢
  rw [hop, hid, ← hs.cancelled]
  exact h

theorem Fits.of_same {u : Task Code} (h : Fits s u) (hs : Same s m)
    (hid : u.id = t.id) (hop : u.code.operation = t.code.operation) : Fits m t := by
  unfold Fits at h ⊢
  rw [hs.state, hs.restart, ← hop, ← hid]
  exact h

theorem Harmless.of_same {u : Task Code} (h : Harmless s u) (hs : Same s m)
    (hid : u.id = t.id) (hop : u.code.operation = t.code.operation) : Harmless m t := by
  unfold Harmless at h ⊢
  rw [hs.state, hs.cancelled, ← hop, ← hid]
  exact h

theorem Harmless.operation (h : Harmless s t) : t.code.operation ≠ none := by
  rcases h with ⟨hop, -⟩ | ⟨hop, -⟩
  · simp [hop]
  · simp [hop]

/-! ### Who can write in which state -/

theorem Sole.not_writes_connected (h : Sole s r) (hs : s.heap.connectionState = .connected) :
    ∀ t ∈ s.tasks, ¬ Writes s t := by
  intro t ht hwr
  have hfits := h.fits t ht hwr
  unfold Fits at hfits
  split at hfits
  · simp [hs] at hfits
  · simp [hs] at hfits
  · simp [hs] at hfits
  · next hop => exact hwr.1 hop

theorem Sole.not_writes_disconnected (h : Sole s r) (hs : s.heap.connectionState = .disconnected)
    (hd : ¬ Suspended s .disconnect) : ∀ t ∈ s.tasks, ¬ Writes s t := by
  intro t ht hwr
  have hfits := h.fits t ht hwr
  unfold Fits at hfits
  split at hfits
  · simp [hs] at hfits
  · next hop => exact hd ⟨t, ht, hop⟩
  · simp [hs] at hfits
  · next hop => exact hwr.1 hop

/-- While connecting, with no `connect()` suspended, it is the restart task. -/
theorem Sole.restart_connecting (h : Sole s r) (hs : s.heap.connectionState = .connecting)
    (hc : ¬ Suspended s .connect) (ht : t ∈ s.tasks) (hwr : Writes s t) :
    t.code.operation = some .restart ∧ s.heap.restartTask = some t.id := by
  have hfits := h.fits t ht hwr
  unfold Fits at hfits
  split at hfits
  · next hop => exact absurd ⟨t, ht, hop⟩ hc
  · simp [hs] at hfits
  · next hop => exact ⟨hop, hfits.2⟩
  · next hop => exact absurd hop hwr.1

/-! ### Kinds of turns -/

/-- A turn that leaves the connection alone. -/
theorem Sole.keep (h : Sole s r) (hwm : m.WellFormed) (ht : s.Turn who d new m) (hs : Same s m)
    (hnew : Idle new) (ho : r'.overtaken = r.overtaken) (ha : r.again = true → r'.again = true)
    (hd : ∀ i c', who = some i → d = some c' → ∃ c, ⟨i, c⟩ ∈ s.tasks ∧ c.operation = c'.operation ∧
      (c'.publishes = true → Writes s ⟨i, c⟩ → r'.again = true)) : Sole m r' := by
  -- every task of an operation was there before, in the same operation
  have hsrc : ∀ t ∈ m.tasks, (∃ u ∈ s.tasks, u.id = t.id ∧ u.code.operation = t.code.operation ∧
      (t.code.publishes = true → Writes s u → r'.again = true)) ∨
        s.next ≤ t.id ∧ t.code.operation = none := by
    intro t hmem
    rcases ht.cases hmem with ⟨hold, -⟩ | ⟨hown, hcode⟩ | hcreated
    · exact .inl ⟨t, hold, rfl, rfl, fun hp hwr => ha (h.held t hold hp hwr)⟩
    · obtain ⟨c, hc, hop, hpub⟩ := hd t.id t.code hown hcode
      exact .inl ⟨⟨t.id, c⟩, hc, rfl, hop, hpub⟩
    · exact .inr ⟨hcreated.le, hnew _ hcreated.mem⟩
  have hwriter : ∀ t ∈ m.tasks, Writes m t → ∃ u ∈ s.tasks, Writes s u ∧ u.id = t.id ∧
      u.code.operation = t.code.operation ∧ (t.code.publishes = true → r'.again = true) := by
    intro t hmem hwr
    rcases hsrc t hmem with ⟨u, hu, hid, hop, hpub⟩ | ⟨-, hop⟩
    · have hwu := hwr.of_same hs hid hop
      exact ⟨u, hu, hwu, hid, hop, fun hp => hpub hp hwu⟩
    · exact absurd hop hwr.1
  constructor
  · intro t hmem hwr
    obtain ⟨u, hu, hwu, hid, hop, -⟩ := hwriter t hmem hwr
    exact (h.fits u hu hwu).of_same hs hid hop
  · intro t hmem t' hmem' hwr hwr'
    obtain ⟨u, hu, hwu, hid, -⟩ := hwriter t hmem hwr
    obtain ⟨u', hu', hwu', hid', -⟩ := hwriter t' hmem' hwr'
    have hne := h.one u hu u' hu' hwu hwu'
    exact hwm.unique t hmem t' hmem' (by rw [← hid, ← hid', hne])
  · intro k hk i hi
    have := h.lt k (ho ▸ hk) i hi
    have := ht.next
    omega
  · intro k hk t hmem hin
    rcases hsrc t hmem with ⟨u, hu, hid, hop, -⟩ | ⟨hle, -⟩
    · exact (h.harmless k (ho ▸ hk) u hu (hid ▸ hin)).of_same hs hid hop
    · have := h.lt k (ho ▸ hk) t.id hin
      omega
  · intro hstate
    exact ha (h.shown (hs.state.symm.trans hstate))
  · intro t hmem hp hwr
    obtain ⟨-, -, -, -, -, hpub⟩ := hwriter t hmem hwr
    exact hpub hp

/-- A turn after which no task can write that was there before, apart from its own: `w` is the
one that can, if there is one. -/
theorem Sole.turn (h : Sole s r) (ht : s.Turn who d new m)
    (hcan : ∀ i ∈ s.cancelled, i ∈ m.cancelled)
    (hothers : ∀ t ∈ s.tasks, who ≠ some t.id → ¬ Writes m t)
    (hown : ∀ i c', who = some i → d = some c' → ∃ c, ⟨i, c⟩ ∈ s.tasks ∧ c.operation = none)
    (w : Option (Task Code))
    (hw : ∀ t, who = some t.id ∧ d = some t.code ∨ Actor.Created s.next new t →
      t.code.operation ≠ none → w = some t)
    (hfits : ∀ t, w = some t → Fits m t ∧ t.code.publishes = false)
    (hstate : m.heap.connectionState = .connected → r.again = true) : Sole m r := by
  have hwriter : ∀ t ∈ m.tasks, Writes m t → w = some t := by
    intro t hmem hwr
    rcases ht.cases hmem with ⟨hold, hne⟩ | hnew
    · exact absurd hwr (hothers t hold hne)
    · exact hw t hnew hwr.1
  constructor
  · intro t hmem hwr
    exact (hfits t (hwriter t hmem hwr)).1
  · intro t hmem u hmem' hwr hwr'
    exact Option.some.inj ((hwriter t hmem hwr).symm.trans (hwriter u hmem' hwr'))
  · intro k hk i hi
    have := h.lt k hk i hi
    have := ht.next
    omega
  · intro k hk t hmem hin
    rcases ht.cases hmem with ⟨hold, hne⟩ | ⟨hwho, hcode⟩ | hcreated
    · rcases h.harmless k hk t hold hin with ⟨hop, hc⟩ | ⟨hop, -⟩
      · exact .inl ⟨hop, hcan _ hc⟩
      · -- a `disconnect()` could write
        exact absurd ⟨by simp [hop], by simp [hop]⟩ (hothers t hold hne)
    · obtain ⟨c, hc, hop⟩ := hown t.id t.code hwho hcode
      exact absurd hop (h.harmless k hk _ hc hin).operation
    · have := h.lt k hk t.id hin
      have := hcreated.le
      omega
  · exact hstate
  · intro t hmem hp hwr
    have hnot := (hfits t (hwriter t hmem hwr)).2
    rw [hp] at hnot
    cases hnot

/-- A turn that ends the only operation that can write. -/
theorem Sole.finish {id : Nat} {c : Code} (h : Sole s r) (hc : ⟨id, c⟩ ∈ s.tasks)
    (hwr : Writes s ⟨id, c⟩) (ht : s.Turn (some id) none new m) (hnew : Idle new)
    (hcan : ∀ i ∈ s.cancelled, i ∈ m.cancelled)
    (hstate : m.heap.connectionState = .connected → r.again = true) : Sole m r := by
  refine h.turn ht hcan (fun t hmem hne hwt => ?_) (by simp) none (fun t hnew' hop => ?_) (by simp)
    hstate
  · have heq := h.one _ hc t hmem hwr (hwt.of_mono hcan)
    exact hne (by rw [← heq])
  · rcases hnew' with ⟨-, hcode⟩ | hcreated
    · cases hcode
    · exact absurd (hnew _ hcreated.mem) hop

/-- A turn after which no task can write. -/
theorem Sole.silent (h : Sole s r) (ht : s.Turn who none [] m)
    (hcan : ∀ i ∈ s.cancelled, i ∈ m.cancelled)
    (hothers : ∀ t ∈ s.tasks, who ≠ some t.id → ¬ Writes m t)
    (hstate : m.heap.connectionState ≠ .connected) : Sole m r := by
  refine h.turn ht hcan hothers (by simp) none (fun t hnew _ => ?_) (by simp)
    fun hst => absurd hst hstate
  rcases hnew with ⟨-, hcode⟩ | hcreated
  · cases hcode
  · exact absurd hcreated Actor.not_created_nil

/-- A turn with which an operation begins that is the only one to write. -/
theorem Sole.begins {id : Nat} {c c' : Code} (h : Sole s r) (hc : ⟨id, c⟩ ∈ s.tasks)
    (hop : c.operation = none) (ht : s.Turn (some id) (some c') [] m)
    (hcan : ∀ i ∈ s.cancelled, i ∈ m.cancelled)
    (hothers : ∀ t ∈ s.tasks, some id ≠ some t.id → ¬ Writes m t)
    (hfits : Fits m ⟨id, c'⟩) (hpub : c'.publishes = false)
    (hstate : m.heap.connectionState ≠ .connected) : Sole m r := by
  refine h.turn ht hcan hothers (fun i d hi hd => ?_) (some ⟨id, c'⟩) (fun t hnew _ => ?_)
    (fun t ht' => ?_) fun hst => absurd hst hstate
  · cases hi
    exact ⟨c, hc, hop⟩
  · rcases hnew with ⟨hid, hcode⟩ | hcreated
    · obtain ⟨tid, tcode⟩ := t
      simp only [Option.some.injEq] at hid hcode
      rw [hid, hcode]
    · exact absurd hcreated Actor.not_created_nil
  · cases ht'
    exact ⟨hfits, hpub⟩

end

/-! ### Each kind of step -/

variable {s s' : State} {m : Main} {a : Action} {r : Kicks}

theorem Sole.run {id : Nat} {file : Option String} {now : ℚ} {c : Code} (h : Sole s.main r)
    (hwm : m.WellFormed) (hp : Undisturbed s (.run id file now))
    (hc : s.main.code? id = some c) (hran : Ran s.main id m c) : Sole m r := by
  have hmem := Actor.mem_of_code? hc
  have hfree : c.Unhindered s.main id := hp c hc
  cases hran with
  | stay ht hop hpub hs =>
    refine h.keep hwm ht hs idle_nil rfl (fun ha => ha) fun i c' hi hc' => ?_
    cases hi
    cases hc'
    exact ⟨c, hmem, hop.symm, fun hp' => by simp [hpub] at hp'⟩
  | done _ ht hs | dropped _ ht hs => exact h.keep hwm ht hs idle_nil rfl (fun ha => ha) (by simp)
  | connect hs ht hs' hr hcan =>
    have hmono : ∀ i ∈ s.main.cancelled, i ∈ m.cancelled := fun i hi => by simp [hcan, hi]
    refine h.begins hmem rfl ht hmono (fun t hmem' _ hwt => ?_) hs' rfl (by simp [hs'])
    exact h.not_writes_disconnected hs (hfree hs) t hmem' (hwt.of_mono hmono)
  -- the config could not be read: `connect()` is over within its first turn
  | unread hs ht hs' hr hcan =>
    have hmono : ∀ i ∈ s.main.cancelled, i ∈ m.cancelled := fun i hi => by simp [hcan, hi]
    refine h.silent ht hmono (fun t hmem' _ hwt => ?_) (by simp [hs'])
    exact h.not_writes_disconnected hs (hfree hs) t hmem' (hwt.of_mono hmono)
  | failed hop ht hs' hr hcan =>
    have hwr : Writes s.main ⟨id, c⟩ := ⟨by simp [hop], by simp [hop]⟩
    exact h.finish hmem hwr ht idle_nil (fun i hi => hcan ▸ hi) (by simp [hs'])
  | connected ht hs' hr hcan =>
    refine h.finish hmem ⟨by simp [Code.operation], by simp [Code.operation]⟩ ht
      (by simp [Idle, Code.operation]) (fun i hi => by simp [hcan, hi]) fun _ => ?_
    exact h.held _ hmem rfl ⟨by simp [Code.operation], by simp [Code.operation]⟩
  | disconnect hs ht hs' hr hcan =>
    have hmono : ∀ i ∈ s.main.cancelled, i ∈ m.cancelled := fun i hi => by simp [hcan, hi]
    refine h.begins hmem rfl ht hmono (fun t hmem' _ hwt => ?_) (.inl hs') rfl (by simp [hs'])
    have hws : Writes s.main t := hwt.of_mono hmono
    rcases hs with hs | hs
    · exact h.not_writes_connected hs t hmem' hws
    · -- the restart task, which has just been cancelled
      obtain ⟨hop, htask⟩ := h.restart_connecting hs (hfree hs) hmem' hws
      exact hwt.2 hop (by simp [hcan, htask])
  | disconnected ht hs' hr hcan =>
    exact h.finish hmem ⟨by simp [Code.operation], by simp [Code.operation]⟩ ht idle_nil
      (fun i hi => hcan ▸ hi) (by simp [hs'])
  | gaveUp hlive ht hs' hr hcan =>
    have hlive : id ∉ s.main.cancelled := by
      rcases hlive with hlive | ⟨rfl, hmax⟩
      · exact hlive
      · intro hin
        have hlt : s.main.heap.restartFailures < maxAutoRestart := hfree hin
        omega
    exact h.finish hmem ⟨by simp [Code.operation], fun _ => hlive⟩ ht idle_nil
      (fun i hi => hcan ▸ hi) (by simp [hs'])
  | @restarted toml hlive ht hs' hr hcan =>
    have hwr : Writes s.main ⟨id, .restart toml (.connected none)⟩ :=
      ⟨by simp [Code.operation], fun _ => hlive⟩
    exact h.finish hmem hwr ht (by simp [Idle, Code.operation]) (fun i hi => by simp [hcan, hi])
      fun _ => h.held _ hmem rfl hwr

/-- The owner of another session takes over. Only a `disconnect()` can still write. -/
theorem Sole.kicked (h : Sole s.main r) (hw : s.main.WellFormed) (hc : ¬ Suspended s.main .connect)
    (ht : s.main.Turn none none [] m) (hs' : m.heap.connectionState = .disconnected)
    (hcan : m.cancelled =
      s.main.heap.pollTask.toList ++ (s.main.heap.restartTask.toList ++ s.main.cancelled)) :
    Sole m { overtaken := operations s.main :: r.overtaken, again := false } := by
  have hmono : ∀ i ∈ s.main.cancelled, i ∈ m.cancelled := fun i hi => by simp [hcan, hi]
  have hold : ∀ t ∈ m.tasks, t ∈ s.main.tasks := by
    intro t hmem
    rcases ht.cases hmem with ⟨hold, -⟩ | ⟨hwho, -⟩ | hcreated
    · exact hold
    · cases hwho
    · exact absurd hcreated Actor.not_created_nil
  have hharm : ∀ t ∈ m.tasks, t.code.operation ≠ none → Harmless m t := by
    intro t hmem hop
    have hmem' := hold t hmem
    cases hcode : t.code.operation with
    | none => exact absurd hcode hop
    | some op =>
      cases op with
      | connect => exact absurd ⟨t, hmem', hcode⟩ hc
      | disconnect => exact .inr ⟨hcode, hs'⟩
      -- the live restart task is the one in `restartTask`, which the handler cancels
      | restart =>
        refine .inl ⟨hcode, ?_⟩
        by_contra hlive
        have hwr : Writes s.main t := ⟨hop, fun _ hin => hlive (hmono _ hin)⟩
        have hfits := h.fits t hmem' hwr
        simp only [Fits, hcode] at hfits
        exact hlive (by simp [hcan, hfits.2])
  constructor
  · intro t hmem hwr
    rcases hharm t hmem hwr.1 with ⟨hop, hin⟩ | ⟨hop, -⟩
    · exact absurd hin (hwr.2 hop)
    · simp [Fits, hop, hs']
  · intro t hmem u hmem' hwr hwr'
    exact h.one t (hold t hmem) u (hold u hmem') (hwr.of_mono hmono) (hwr'.of_mono hmono)
  · intro k hk i hi
    have hnext := ht.next
    rcases List.mem_cons.mp hk with rfl | hk
    · obtain ⟨t, htm, rfl⟩ := List.mem_map.mp hi
      have := hw.lt t (List.mem_filter.mp htm).1
      omega
    · have := h.lt k hk i hi
      omega
  -- what was overtaken before stays so; what is overtaken now is harmless
  · intro k hk t hmem hin
    rcases List.mem_cons.mp hk with rfl | hk
    · obtain ⟨u, hum, hid⟩ := List.mem_map.mp hin
      obtain ⟨hum, hop⟩ := List.mem_filter.mp hum
      have heq := hw.unique u hum t (hold t hmem) hid
      exact hharm t hmem (by rw [← heq]; exact Option.isSome_iff_ne_none.mp hop)
    · exact hharm t hmem (h.harmless k hk t (hold t hmem) hin).operation
  · intro hst
    simp [hs'] at hst
  · intro t hmem hp hwr
    rcases hharm t hmem hwr.1 with ⟨hop, hin⟩ | ⟨hop, -⟩
    · exact absurd hin (hwr.2 hop)
    · -- a `disconnect()` holds no success
      cases hcode : t.code with
      | disconnect pc => simp [hcode, Code.publishes] at hp
      | connect pc => cases pc <;> simp [hcode, Code.operation] at hop
      | _ => simp [hcode, Code.operation] at hop

theorem noteKick_handle_ne {ev : BridgeEvent} {events : List BridgeEvent}
    (he : s.events = ev :: events) (hev : ev ≠ .kicked) : noteKick s .handle r = r := by
  simp [noteKick, he, hev]

theorem Sole.handle {ev : BridgeEvent} {events : List BridgeEvent} (h : Sole s.main r)
    (hw : s.main.WellFormed) (hwm : m.WellFormed) (hp : Undisturbed s .handle)
    (he : s.events = ev :: events) (hh : Handled s.main m ev) : Sole m (noteKick s .handle r) := by
  cases hh with
  | same hnew ht hs hkick =>
    rw [noteKick_handle_ne he hkick]
    exact h.keep hwm ht hs hnew rfl id (by simp)
  | kicked ht hs' hr hcan =>
    have hnote : noteKick s .handle r =
        { overtaken := operations s.main :: r.overtaken, again := false } := by simp [noteKick, he]
    rw [hnote]
    exact h.kicked hw (hp (by simp [he])) ht hs' hcan
  | exited hs ht hs' hr hcan =>
    rw [noteKick_handle_ne he (by simp)]
    have hmono : ∀ i ∈ s.main.cancelled, i ∈ m.cancelled := fun i hi => by simp [hcan, hi]
    refine h.silent ht hmono (fun t hmem _ hwt => ?_) (by simp [hs'])
    exact h.not_writes_connected hs t hmem (hwt.of_mono hmono)
  | @restarts code signal toml hs ht hs' hr hcan =>
    rw [noteKick_handle_ne he (by simp)]
    have hmono : ∀ i ∈ s.main.cancelled, i ∈ m.cancelled := fun i hi => by simp [hcan, hi]
    refine h.turn ht hmono (fun t hmem _ hwt => ?_) (by simp)
      (some ⟨s.main.next, .restart toml .start⟩) (fun t hnew _ => ?_) (fun t ht' => ?_)
      (by simp [hs'])
    · exact h.not_writes_connected hs t hmem (hwt.of_mono hmono)
    · rcases hnew with ⟨hwho, -⟩ | hcreated
      · cases hwho
      · have hconcat : Actor.Created s.main.next ([] ++ [.restart toml .start]) t := hcreated
        rcases Actor.created_concat.mp hconcat with hnil | rfl
        · exact absurd hnil Actor.not_created_nil
        · rfl
    · cases ht'
      exact ⟨⟨hs', hr⟩, rfl⟩

theorem Sole.perform {reply : Reply} {id : Nat} {queue : List (Option Nat)} {c c' : Code}
    (h : Sole s.main r) (hwm : m.WellFormed) (hq : s.main.queue = some id :: queue)
    (hc : s.main.code? id = some c) (hc' : c.answered reply = some c')
    (ht : s.main.Turn (some id) (some c') [] m) (hs : Same s.main m) :
    Sole m (noteKick s (.perform reply) r) := by
  have hmem := Actor.mem_of_code? hc
  refine h.keep hwm ht hs idle_nil rfl (fun ha => by simp [noteKick, ha]) fun i d hi hd => ?_
  cases hi
  cases hd
  refine ⟨c, hmem, (answered_operation hc').symm, fun hpub hwr => ?_⟩
  have hconn : c.connects reply = true := (answered_publishes hc').symm.trans hpub
  -- what was overtaken cannot write, or is no `bridge.connect`
  have hfresh : ∀ k ∈ r.overtaken, id ∉ k := by
    intro k hk hin
    rcases h.harmless k hk _ hmem hin with ⟨hop, hcan⟩ | ⟨hop, -⟩
    · exact hwr.2 hop hcan
    · have hop' : c.operation = some .disconnect := hop
      rcases connects_operation hconn with hop'' | hop''
      · rw [hop''] at hop'
        cases hop'
      · rw [hop''] at hop'
        cases hop'
  have hsucc : succeeding s.main reply = some id := by
    rw [succeeding_eq hq hc, hconn]
    rfl
  simp only [noteKick, hsucc, Option.any_some, Bool.or_eq_true, decide_eq_true_eq]
  exact .inr hfresh

theorem noteKick_quiet (ha : a.isQuiet = true) : noteKick s a r = r := by
  cases a with
  | deliver ev | handle | perform reply | run id file now => cases ha
  | _ => rfl

theorem Sole.step (h : Sole s.main r) (hw : s.main.WellFormed) (hp : Undisturbed s a)
    (hs : step s a = some s') : Sole s'.main (noteKick s a r) := by
  have hmove := step_move hw hs
  have hwm := hmove.wellFormed hw
  cases hmove with
  | quiet ha hnew ht hsame =>
    rw [noteKick_quiet ha]
    exact h.keep hwm ht hsame hnew rfl id (by simp)
  | deliver => exact h
  | handle he hh => exact h.handle hw hwm hp he hh
  | perform hq hc hc' ht hsame => exact h.perform hwm hq hc hc' ht hsame
  | run hc hran => exact h.run hwm hp hc hran

/-! ## Every run -/

/-- When an operation that has nothing left to show resumes, `connectionState` stays. -/
theorem Ran.of_harmless {s m : Main} {id : Nat} {c : Code} (h : Ran s id m c)
    (hh : Harmless s ⟨id, c⟩) (hfree : c.Unhindered s id) :
    m.heap.connectionState = s.heap.connectionState ∧ m.cancelled = s.cancelled := by
  have hop : c.operation = some .restart ∧ id ∈ s.cancelled ∨
      c.operation = some .disconnect ∧ s.heap.connectionState = .disconnected := hh
  cases h with
  | stay _ _ _ hs | done _ _ hs | dropped _ _ hs => exact ⟨hs.state, hs.cancelled⟩
  | connect | unread | connected | disconnect => simp [Code.operation] at hop
  | failed hop' => simp [hop'] at hop
  | disconnected _ hs' _ hcan =>
    rcases hop with ⟨hop, -⟩ | ⟨-, hs⟩
    · simp [Code.operation] at hop
    · exact ⟨hs'.trans hs.symm, hcan⟩
  | gaveUp hlive =>
    rcases hop with ⟨-, hin⟩ | ⟨hop, -⟩
    · rcases hlive with hlive | ⟨rfl, hmax⟩
      · exact absurd hin hlive
      · have hlt : s.heap.restartFailures < maxAutoRestart := hfree hin
        omega
    · simp [Code.operation] at hop
  | restarted hlive =>
    rcases hop with ⟨-, hin⟩ | ⟨hop, -⟩
    · exact absurd hin hlive
    · simp [Code.operation] at hop

/-- The invariant gives the property. -/
theorem Sole.unpublished (h : Sole s.main r) (hw : s.main.WellFormed) :
    Unpublished Undisturbed (s, r) where
  resumed k hk id hid file now s' hp hs := by
    cases step_move hw hs with
    | quiet ha => cases ha
    | run hc hran =>
      have hmem := Actor.mem_of_code? hc
      obtain ⟨hstate, hcan⟩ := hran.of_harmless (h.harmless k hk _ hmem hid) (hp _ hc)
      obtain ⟨d, new, ht, -⟩ := hran.turn
      refine ⟨fun hs' => hstate.symm.trans hs', fun u hu _ huk => ⟨hstate, ?_, ?_⟩⟩
      · refine ht.keep hu fun he => huk ?_
        rw [← Option.some.inj he]
        exact hid
      · intro hwr
        refine ⟨hwr.1, fun hop hin => hwr.2 hop ?_⟩
        rw [← hcan]
        exact hin
  one := h.one
  writes t ht hop file now s' hp hs hne := by
    by_contra hnot
    cases step_move hw hs with
    | quiet ha => cases ha
    | run hc hran =>
      have heq := hw.unique t ht _ (Actor.mem_of_code? hc) rfl
      have hharm : Harmless s.main t := by
        by_contra hharm
        refine hnot ⟨hop, fun hrestart hin => hharm (.inl ⟨hrestart, hin⟩)⟩
      exact hne (hran.of_harmless (heq ▸ hharm) (hp _ hc)).1
  shown := h.shown

variable {d : Defaults}

theorem reachable_of_contested {P : State → Action → Prop} {p : State × Kicks}
    (h : (contested d).ReachableBy (fun q a => P q.1 a) p) : (app d).ReachableBy P p.1 :=
  System.ReachableBy.of_recording h

theorem sole_start (d : Defaults) : Sole (start d).main {} := by
  have hop : ∀ t ∈ (start d).main.tasks, t.code.operation = none := by
    intro t ht
    simp only [start, onBecomeActive, Actor.spawn, List.nil_append, List.cons_append, List.mem_cons,
      List.not_mem_nil, or_false] at ht
    rcases ht with rfl | rfl
    · rfl
    · rfl
  constructor
  · exact fun t ht hwr => absurd (hop t ht) hwr.1
  · exact fun t ht _ _ hwr => absurd (hop t ht) hwr.1
  · exact fun k hk => absurd hk List.not_mem_nil
  · exact fun k hk => absurd hk List.not_mem_nil
  · intro hs
    cases hs
  · exact fun t ht _ hwr => absurd (hop t ht) hwr.1

/-- **An overtaken operation does not show its result**, in every run in which operations are
not disturbed by takeovers and by each other. -/
theorem overtaken_unpublished {p : State × Kicks}
    (h : (contested d).ReachableBy (fun q a => Undisturbed q.1 a) p) : Unpublished Undisturbed p := by
  have hsole : Sole p.1.main p.2 := by
    refine h.invariant (I := fun q => Sole q.1.main q.2) (sole_start d) ?_
    rintro ⟨s, r⟩ a ⟨s', r'⟩ hr hi hp ⟨hs, rfl⟩
    exact hi.step (reachable_wellFormed (reachable_of_contested hr)) hp hs
  exact hsole.unpublished (reachable_wellFormed (reachable_of_contested h))

namespace Trial

/-- The connection is shown, the core exits, and the first restart succeeds. -/
def restarts : List Action :=
  [.run 2 none 0] ++ coreExited ++ [.run 5 none 0, .run 5 none 0, .perform (.message none)]

end Trial

/-- A run of the app with its record that evaluates. -/
theorem exists_contested (d : Defaults) (P : State → Action → Prop) [∀ s a, Decidable (P s a)]
    (l : List Action) (q : State × Kicks → Bool)
    (h : (System.runBy (System.recordStep step noteKick) (fun p a => P p.1 a) (start d, {}) l).any q =
      true) :
    ∃ p, (contested d).ReachableBy (fun p a => P p.1 a) p ∧ q p = true := by
  have hrec : contested d = .ofStep (start d, {}) (System.recordStep step noteKick) :=
    System.recording_ofStep
  rw [hrec]
  exact System.exists_reachableBy_of_runBy h

/-- `kicked` is handled while `connect()` holds its success; the next turn shows it. -/
theorem kicked_connect_shown :
    ∃ p, (contested {}).ReachableBy (fun p a => ByPill p.1 a) p ∧ ¬ Unpublished ByPill p := by
  obtain ⟨p, hp, hq⟩ := exists_contested {} ByPill (Trial.connecting ++ Trial.kicked)
    (fun p => decide (p.2.overtaken = [[2]] ∧ p.1.main.heap.connectionState = .disconnected ∧
      ((step p.1 (.run 2 none 0)).map fun s => s.main.heap.connectionState) = some .connected))
    (by decide +kernel)
  obtain ⟨hk, hs, hrun⟩ := of_decide_eq_true hq
  refine ⟨p, hp, fun h => ?_⟩
  obtain ⟨s', hs', hst⟩ := Option.map_eq_some_iff.mp hrun
  have hkeep := (h.resumed [2] (by simp [hk]) 2 (by simp) none 0 s' (by simp [ByPill]) hs').1 hst
  rw [hs] at hkeep
  cases hkeep

/-- A restart attempt is overtaken, and its `bridge.connect` has succeeded. -/
theorem overtaken_unpublished_restart :
    ∃ p, (contested {}).ReachableBy (fun p a => Undisturbed p.1 a) p ∧ p.2.overtaken = [[5]] ∧
      p.1.main.code? 5 = some (.restart "config" (.connected none)) ∧ Unpublished Undisturbed p := by
  obtain ⟨p, hp, hq⟩ := exists_contested {} Undisturbed
    (Trial.connecting ++ Trial.restarts ++ Trial.kicked)
    (fun p => decide (p.2.overtaken = [[5]] ∧
      p.1.main.code? 5 = some (.restart "config" (.connected none)))) (by decide +kernel)
  obtain ⟨hk, hc⟩ := of_decide_eq_true hq
  exact ⟨p, hp, hk, hc, overtaken_unpublished hp⟩

end EasyTierMac.App
