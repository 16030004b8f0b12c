import EasyTierMac.App.Roles

/-!
# What a connection leaves behind

`Clean` says that nothing of a connection is left in the fields of `AppModel`. The paths to
`.disconnected` clear different fields; `Orderly` are the steps on which each finds nothing
that it does not clear, and on which `connect()` and `disconnect()` do not overlap.

`Tidy` is the invariant of such runs: who is suspended in which state, what may be left over
there, and that a polling task that has not been cancelled is the one that `startPolling`
created last. A turn of the app is one of a few kinds, each with its lemma, and `Tidy.step`
puts them together.
-/

namespace EasyTierMac.App

/-! ## Orderly steps -/

/-- Nothing of a connection is left in the fields of `AppModel`. -/
structure Clean (m : AppModel) : Prop where
  toml : m.runningToml = none
  config : m.configChanged = false
  rows : m.rows = []
  rates : m.rateSamples = []

def Busy (s : Main) (r : Role) : Prop := ∃ t ∈ s.tasks, t.code.role = some r

instance : ∀ s r, Decidable (Busy s r) := fun s r =>
  inferInstanceAs (Decidable (∃ t ∈ s.tasks, t.code.role = some r))

/-- The restart task stands where it gives up. -/
def GivesUp (s : Main) (id : Nat) : RestartAt → Prop
  | .start => maxAutoRestart ≤ s.heap.restartFailures
  | .connected (some _) => id ∉ s.cancelled ∧ maxAutoRestart ≤ s.heap.restartFailures + 1
  | _ => False

instance (s : Main) (id : Nat) (pc : RestartAt) : Decidable (GivesUp s id pc) := by
  unfold GivesUp
  split <;> infer_instance

/-- The task begins with no other operation in its way, or gives up with nothing of the
connection left that nobody clears. -/
def Code.Orderly (s : Main) (id : Nat) : Code → Prop
  | .connect .start => s.heap.connectionState = .disconnected →
      ¬ Busy s .connect ∧ ¬ Busy s .disconnect
  | .disconnect .start => s.heap.connectionState = .connecting → ¬ Busy s .connect
  | .restart _ pc => GivesUp s id pc →
      s.heap.rateSamples = [] ∧ s.heap.configChanged = false ∨ Busy s .disconnect
  | _ => True

instance (s : Main) (id : Nat) (c : Code) : Decidable (c.Orderly s id) := by
  unfold Code.Orderly
  split <;> infer_instance

/-- The handler of the event clears what there is. -/
def BridgeEvent.Orderly (s : Main) : BridgeEvent → Prop
  | .kicked => s.heap.configChanged = false ∨ Busy s .disconnect
  | .coreExited _ _ => s.heap.connectionState = .connected → s.heap.runningToml ≠ none →
      s.heap.autoRestartEnabled = true
  | _ => True

instance (s : Main) (ev : BridgeEvent) : Decidable (ev.Orderly s) := by
  unfold BridgeEvent.Orderly
  split <;> infer_instance

/-- `kicked` is not handled while `configChanged` is set, a core exit is not handled while the
connection is shown and auto-restart is off, and the restart task does not give up while there
are samples or `configChanged` is set, unless a `disconnect()` is suspended that clears them;
`connect()` does not begin while a `connect()` or `disconnect()` is suspended, nor
`disconnect()` while a `connect()` is. -/
def Orderly (s : State) : Action → Prop
  | .handle => ∀ ev ∈ s.events.head?, ev.Orderly s.main
  | .run id _ _ => ∀ c ∈ s.main.code? id, c.Orderly s.main id
  | _ => True

instance : ∀ s a, Decidable (Orderly s a) := fun s a => by
  unfold Orderly
  split <;> infer_instance

/-! ## The invariant -/

structure Tidy (s : Main) : Prop where
  clean : s.heap.connectionState = .disconnected → (∀ i, ¬ Has s .disconnect i) → Clean s.heap
  /-- Nothing is left over while a `connect()` is suspended. -/
  connect : ∀ i, Has s .connect i → Clean s.heap ∧ (s.heap.connectionState = .connecting ∨
    s.heap.connectionState = .disconnected) ∧ ∀ j, ¬ Has s .disconnect j
  one : ∀ i j, Has s .connect i → Has s .connect j → i = j
  disconnect : ∀ i, Has s .disconnect i → s.heap.connectionState = .disconnecting ∨
    s.heap.connectionState = .disconnected
  disconnecting : s.heap.connectionState = .disconnecting → ∃ i, Has s .disconnect i
  restart : ∀ i, Live s .restart i → s.heap.connectionState = .connecting ∧
    s.heap.restartTask = some i ∧ s.heap.restartFailures < maxAutoRestart ∧
    ∀ j, ¬ Has s .connect j
  connected : s.heap.connectionState = .connected → s.heap.restartFailures < maxAutoRestart
  rows : s.heap.connectionState = .connecting → s.heap.rows = []
  still : s.heap.connectionState ≠ .connected → s.heap.pollTask = none
  polls : ∀ i, Live s .poll i → s.heap.pollTask = some i

/-- The fields that the invariant is about. -/
structure SameData (m m' : AppModel) : Prop where
  state : m'.connectionState = m.connectionState
  toml : m'.runningToml = m.runningToml
  config : m'.configChanged = m.configChanged
  rows : m'.rows = m.rows
  rates : m'.rateSamples = m.rateSamples
  failures : m'.restartFailures = m.restartFailures ∨ m'.restartFailures < maxAutoRestart
  poll : m'.pollTask = m.pollTask
  restart : m'.restartTask = m.restartTask

/-- What the invariant reads. -/
def AppModel.read (m : AppModel) :=
  (m.connectionState, m.runningToml, m.configChanged, m.rows, m.rateSamples, m.restartFailures,
    m.pollTask, m.restartTask)

theorem SameData.of_read {m m' : AppModel} (h : m'.read = m.read) : SameData m m' := by
  simp only [AppModel.read, Prod.mk.injEq] at h
  obtain ⟨hstate, htoml, hconfig, hrows, hrates, hfailures, hpoll, hrestart⟩ := h
  exact ⟨hstate, htoml, hconfig, hrows, hrates, .inl hfailures, hpoll, hrestart⟩

theorem Clean.of_same {m m' : AppModel} (h : Clean m) (hs : SameData m m') : Clean m' where
  toml := hs.toml.trans h.toml
  config := hs.config.trans h.config
  rows := hs.rows.trans h.rows
  rates := hs.rates.trans h.rates

variable {s m : Main}

theorem busy_iff {r : Role} : Busy s r ↔ ∃ i, Has s r i := by
  constructor
  · rintro ⟨⟨i, c⟩, hmem, hr⟩
    exact ⟨i, c, hmem, hr⟩
  · rintro ⟨i, c, hmem, hr⟩
    exact ⟨⟨i, c⟩, hmem, hr⟩

namespace Tidy

variable {id : Nat}

/-- No live task polls unless the connection is shown. -/
theorem not_polling (h : Tidy s) (hs : s.heap.connectionState ≠ .connected) (i : Nat) :
    ¬ Live s .poll i := by
  intro hl
  have hp := h.polls i hl
  rw [h.still hs] at hp
  cases hp

/-! ### Kinds of turns -/

/-- A turn that leaves the data alone. A task may end, but not a `disconnect()`. -/
theorem keep (h : Tidy s) (hsub : ∀ r i, Has m r i → Has s r i)
    (hdisc : ∀ i, Has s .disconnect i → Has m .disconnect i) (hd : SameData s.heap m.heap)
    (hcan : ∀ i ∈ s.cancelled, i ∈ m.cancelled) : Tidy m := by
  have hlive : ∀ r i, Live m r i → Live s r i := fun r i hl =>
    ⟨hsub r i hl.1, fun hin => hl.2 (hcan i hin)⟩
  have hfew (hf : s.heap.restartFailures < maxAutoRestart) :
      m.heap.restartFailures < maxAutoRestart := by
    rcases hd.failures with he | hlt
    · rw [he]
      exact hf
    · exact hlt
  constructor
  · intro hs hno
    exact (h.clean (hd.state ▸ hs) fun i hi => hno i (hdisc i hi)).of_same hd
  · intro i hi
    obtain ⟨hc, hs, hno⟩ := h.connect i (hsub _ _ hi)
    rw [hd.state]
    exact ⟨hc.of_same hd, hs, fun j hj => hno j (hsub _ _ hj)⟩
  · exact fun i j hi hj => h.one i j (hsub _ _ hi) (hsub _ _ hj)
  · intro i hi
    rw [hd.state]
    exact h.disconnect i (hsub _ _ hi)
  · intro hs
    obtain ⟨i, hi⟩ := h.disconnecting (hd.state ▸ hs)
    exact ⟨i, hdisc i hi⟩
  · intro i hi
    rw [hd.state, hd.restart]
    obtain ⟨hs, hr, hf, hno⟩ := h.restart i (hlive _ _ hi)
    exact ⟨hs, hr, hfew hf, fun j hj => hno j (hsub _ _ hj)⟩
  · intro hs
    exact hfew (h.connected (hd.state ▸ hs))
  · intro hs
    rw [hd.rows]
    exact h.rows (hd.state ▸ hs)
  · intro hs
    rw [hd.poll]
    exact h.still (hd.state ▸ hs)
  · intro i hi
    rw [hd.poll]
    exact h.polls i (hlive _ _ hi)

/-- A turn after which the app is disconnected and clean, and no live task is left but the
`connect()`s and `disconnect()`s that were there. -/
theorem ended (h : Tidy s) (hsub : ∀ i, Has m .connect i → Has s .connect i)
    (hsub' : ∀ i, Has m .disconnect i → Has s .disconnect i)
    (hs : m.heap.connectionState = .disconnected)
    (hclean : (∀ i, ¬ Has m .disconnect i) → Clean m.heap) (hpoll : m.heap.pollTask = none)
    (hrestart : ∀ i, ¬ Live m .restart i) (hpolls : ∀ i, ¬ Live m .poll i) : Tidy m := by
  constructor
  · exact fun _ hno => hclean hno
  · intro i hi
    obtain ⟨-, -, hno⟩ := h.connect i (hsub i hi)
    have hno' : ∀ j, ¬ Has m .disconnect j := fun j hj => hno j (hsub' j hj)
    exact ⟨hclean hno', .inr hs, hno'⟩
  · exact fun i j hi hj => h.one i j (hsub i hi) (hsub j hj)
  · exact fun i _ => .inr hs
  · exact fun he => absurd he (hs.trans_ne (by decide))
  · exact fun i hi => absurd hi (hrestart i)
  · exact fun he => absurd he (hs.trans_ne (by decide))
  · exact fun he => absurd he (hs.trans_ne (by decide))
  · exact fun _ => hpoll
  · exact fun i hi => absurd hi (hpolls i)

/-- A turn after which the connection is shown, and no operation is left. -/
theorem shown (hs : m.heap.connectionState = .connected) (hf : m.heap.restartFailures = 0)
    (hc : ∀ i, ¬ Has m .connect i) (hd : ∀ i, ¬ Has m .disconnect i)
    (hr : ∀ i, ¬ Live m .restart i) (hp : ∀ i, Live m .poll i → m.heap.pollTask = some i) :
    Tidy m := by
  constructor
  · exact fun he => absurd he (hs.trans_ne (by decide))
  · exact fun i hi => absurd hi (hc i)
  · exact fun i _ hi => absurd hi (hc i)
  · exact fun i hi => absurd hi (hd i)
  · exact fun he => absurd he (hs.trans_ne (by decide))
  · exact fun i hi => absurd hi (hr i)
  · intro _
    rw [hf]
    decide
  · exact fun he => absurd he (hs.trans_ne (by decide))
  · exact fun hne => absurd hs hne
  · exact hp

/-- Rows, samples and `configChanged` move while the connection is shown. -/
theorem data (h : Tidy s) (hhas : ∀ r i, Has m r i ↔ Has s r i)
    (hs : s.heap.connectionState = .connected) (hs' : m.heap.connectionState = .connected)
    (hf : m.heap.restartFailures = s.heap.restartFailures)
    (hp : m.heap.pollTask = s.heap.pollTask) (hcan : m.cancelled = s.cancelled) : Tidy m := by
  have hc (i : Nat) : ¬ Has m .connect i := by
    rw [hhas]
    intro hi
    rcases (h.connect i hi).2.1 with he | he <;> simp [hs] at he
  have hd (i : Nat) : ¬ Has m .disconnect i := by
    rw [hhas]
    intro hi
    rcases h.disconnect i hi with he | he <;> simp [hs] at he
  have hlive (r : Role) (i : Nat) : Live m r i ↔ Live s r i := by
    unfold Live
    rw [hhas, hcan]
  constructor
  · exact fun he => absurd he (hs'.trans_ne (by decide))
  · exact fun i hi => absurd hi (hc i)
  · exact fun i _ hi => absurd hi (hc i)
  · exact fun i hi => absurd hi (hd i)
  · exact fun he => absurd he (hs'.trans_ne (by decide))
  · intro i hi
    have he := (h.restart i ((hlive _ i).mp hi)).1
    simp [hs] at he
  · intro _
    rw [hf]
    exact h.connected hs
  · exact fun he => absurd he (hs'.trans_ne (by decide))
  · exact fun hne => absurd hs' hne
  · intro i hi
    rw [hp]
    exact h.polls i ((hlive _ i).mp hi)

/-! ### The functions -/

/-- The task stops again, in the role that it has. -/
theorem stay {c c' : Code} (h : Tidy s) (hw : s.WellFormed) (hmem : ⟨id, c⟩ ∈ s.tasks)
    (ht : s.Turn (some id) (some c') [] m) (hrole : c'.role = c.role)
    (hd : SameData s.heap m.heap) (hcan : m.cancelled = s.cancelled) : Tidy m :=
  h.keep (fun _ _ hi => (has_stay hw hmem ht hrole).mp hi)
    (fun _ hi => (has_stay hw hmem ht hrole).mpr hi) hd fun _ hi => hcan ▸ hi

/-- The task ends, and was no `disconnect()`. -/
theorem finish {c : Code} (h : Tidy s) (hw : s.WellFormed) (hmem : ⟨id, c⟩ ∈ s.tasks)
    (ht : s.Turn (some id) none [] m) (hrole : c.role ≠ some .disconnect)
    (hd : SameData s.heap m.heap) (hcan : ∀ i ∈ s.cancelled, i ∈ m.cancelled) : Tidy m := by
  refine h.keep (fun _ _ hi => ((has_finish ht).mp hi).1) (fun i hi => ?_) hd hcan
  refine (has_finish ht).mpr ⟨hi, ?_⟩
  rintro rfl
  obtain ⟨c', hmem', hr⟩ := hi
  have he := hw.unique _ hmem _ hmem' rfl
  injection he with _ he
  exact hrole (he ▸ hr)

/-- Tasks without a role are created. -/
theorem quiet {new : List Code} (h : Tidy s) (ht : s.Turn none none new m)
    (hnew : ∀ c ∈ new, c.role = none) (hd : SameData s.heap m.heap)
    (hcan : m.cancelled = s.cancelled) : Tidy m :=
  h.keep (fun _ _ hi => has_of_turn ht hnew (by simp) hi)
    (fun _ hi => has_of_ne ht hi (by simp)) hd fun _ hi => hcan ▸ hi

/-- A `connect()` begins where nothing is in its way. -/
theorem begun (h : Tidy s) (hs : s.heap.connectionState = .disconnected)
    (hnc : ∀ i, ¬ Has s .connect i) (hnd : ∀ i, ¬ Has s .disconnect i)
    (hhas : ∀ r i, Has m r i ↔ Has s r i ∨ r = .connect ∧ i = id)
    (hs' : m.heap.connectionState = .connecting) (hclean : Clean m.heap)
    (hp : m.heap.pollTask = s.heap.pollTask) (hcan : ∀ i ∈ s.cancelled, i ∈ m.cancelled) :
    Tidy m := by
  have hlive (r : Role) (i : Nat) (hr : r ≠ .connect) (hl : Live m r i) : Live s r i := by
    rcases (hhas r i).mp hl.1 with hi | ⟨he, -⟩
    · exact ⟨hi, fun hin => hl.2 (hcan i hin)⟩
    · exact absurd he hr
  have hown (i : Nat) (hi : Has m .connect i) : i = id := by
    rcases (hhas _ i).mp hi with hi | ⟨-, he⟩
    · exact absurd hi (hnc i)
    · exact he
  have hnd' (i : Nat) : ¬ Has m .disconnect i := by
    rw [hhas]
    rintro (hi | ⟨he, -⟩)
    · exact hnd i hi
    · cases he
  constructor
  · exact fun he => absurd he (hs'.trans_ne (by decide))
  · exact fun i _ => ⟨hclean, .inl hs', hnd'⟩
  · exact fun i j hi hj => (hown i hi).trans (hown j hj).symm
  · exact fun i hi => absurd hi (hnd' i)
  · exact fun he => absurd he (hs'.trans_ne (by decide))
  · intro i hi
    have he := (h.restart i (hlive _ _ (by decide) hi)).1
    simp [hs] at he
  · exact fun he => absurd he (hs'.trans_ne (by decide))
  · exact fun _ => hclean.rows
  · intro _
    rw [hp]
    exact h.still (by simp [hs])
  · exact fun i hi => absurd (hlive _ _ (by decide) hi) (h.not_polling (by simp [hs]) i)

/-- What `startPolling` makes of the tasks that poll. -/
theorem polls_started {d : Option Code} {new : List Code} (h : Tidy s)
    (ht : s.Turn (some id) d (.poll .start :: new) m) (hd : d = none)
    (hnew : ∀ c ∈ new, c.role = none)
    (hcan : m.cancelled = s.heap.pollTask.toList ++ s.cancelled) (i : Nat) (hl : Live m .poll i) :
    i = s.next := by
  rcases (has_turn ht).mp hl.1 with ⟨hold, -⟩ | ⟨-, c, hc, -⟩ | ⟨c, hcreated, hr⟩
  · have hnot : i ∉ s.heap.pollTask.toList ++ s.cancelled := hcan ▸ hl.2
    rw [List.mem_append, not_or] at hnot
    have hp := h.polls i ⟨hold, hnot.2⟩
    exact absurd (by simp [hp]) hnot.1
  · rw [hd] at hc
    cases hc
  · obtain ⟨k, hk, hid⟩ := hcreated
    cases k with
    | zero => exact hid
    | succ k =>
      have hmem : c ∈ new := List.mem_of_getElem? (by simpa using hk)
      rw [hnew c hmem] at hr
      cases hr

variable {file : Option String} {now : ℚ}

/-- A `connect()` that is suspended fails. -/
theorem failed (h : Tidy s) (hi : Has s .connect id) (ht : s.Turn (some id) none [] m)
    (hs : m.heap.connectionState = .disconnected) (hclean : Clean s.heap → Clean m.heap)
    (hp : m.heap.pollTask = s.heap.pollTask) (hcan : m.cancelled = s.cancelled) : Tidy m := by
  obtain ⟨hclean₀, hst, -⟩ := h.connect id hi
  have hne : s.heap.connectionState ≠ .connected := by
    rcases hst with he | he <;> simp [he]
  have hlive {r : Role} {i : Nat} (hl : Live m r i) : Live s r i :=
    ⟨((has_finish ht).mp hl.1).1, hcan ▸ hl.2⟩
  refine h.ended (fun _ hj => ((has_finish ht).mp hj).1) (fun _ hj => ((has_finish ht).mp hj).1) hs
    (fun _ => hclean hclean₀) (hp.trans (h.still hne)) (fun i hl => ?_) fun i hl => ?_
  · obtain ⟨-, -, -, hno⟩ := h.restart i (hlive hl)
    exact hno id hi
  · exact h.not_polling hne i (hlive hl)

/-- A `connect()` that is suspended succeeds. -/
theorem succeeded (h : Tidy s) (hi : Has s .connect id)
    (ht : s.Turn (some id) none [.poll .start, .refresh .start] m)
    (hs : m.heap.connectionState = .connected) (hf : m.heap.restartFailures = 0)
    (hp : m.heap.pollTask = some s.next)
    (hcan : m.cancelled = s.heap.pollTask.toList ++ s.cancelled) : Tidy m := by
  obtain ⟨-, -, hnd⟩ := h.connect id hi
  have hnew : ∀ c ∈ [Code.refresh .start], c.role = none := by simp [Code.role]
  have hold {r : Role} {i : Nat} (hr : r ≠ .poll) (hl : Has m r i) : Has s r i ∧ i ≠ id := by
    rcases (has_turn ht).mp hl with ⟨hold, hne⟩ | ⟨-, c, hc, -⟩ | ⟨c, hcreated, hrole⟩
    · exact ⟨hold, fun he => hne (by rw [he])⟩
    · cases hc
    · have hmem := hcreated.mem
      simp only [List.mem_cons, List.not_mem_nil, or_false] at hmem
      rcases hmem with rfl | rfl
      · exact absurd (Option.some.inj hrole).symm hr
      · cases hrole
  refine shown hs hf (fun i hc => ?_) (fun i hd => ?_) (fun i hl => ?_) fun i hl => ?_
  · obtain ⟨hc, hne⟩ := hold (by decide) hc
    exact hne (h.one i id hc hi)
  · exact hnd i (hold (by decide) hd).1
  · have hlive : Live s .restart i :=
      ⟨(hold (by decide) hl.1).1, fun hin => hl.2 (hcan ▸ List.mem_append_right _ hin)⟩
    obtain ⟨-, -, -, hno⟩ := h.restart i hlive
    exact hno id hi
  · rw [hp, h.polls_started ht rfl hnew hcan i hl]

theorem connect_run {pc : ConnectAt} (h : Tidy s) (hw : s.WellFormed)
    (hc : ⟨id, .connect pc⟩ ∈ s.tasks) (hord : (Code.connect pc).Orderly s id)
    (hrun : App.connect s id file pc = some m) : Tidy m := by
  have hlt : id < s.next := hw.lt _ hc
  have ht := Actor.Turn.start hw hc
  cases pc with
  | start =>
    simp only [App.connect] at hrun
    split at hrun
    · next hs =>
      obtain ⟨hnc, hnd⟩ := hord hs
      rw [busy_iff, not_exists] at hnc hnd
      cases file with
      | none =>
        -- it is disconnected again before anything else runs
        cases hrun
        exact h.finish hw hc (ht.cancel.modify.modify.finish hlt) (by simp [Code.role])
          ⟨hs.symm, rfl, rfl, rfl, rfl, .inl rfl, rfl, rfl⟩
          fun _ hi => List.mem_append_right _ hi
      | some text =>
        cases hrun
        have hclean := h.clean hs hnd
        exact h.begun hs hnc hnd
          (fun _ _ => has_begin hw hc rfl (ht.cancel.modify.call hlt) rfl) rfl
          ⟨hclean.toml, hclean.config, hclean.rows, hclean.rates⟩ rfl
          fun _ hi => List.mem_append_right _ hi
    · cases hrun
      exact h.finish hw hc (ht.finish hlt) (by simp [Code.role])
        (.of_read rfl) fun _ hi => hi
  | validated text v =>
    simp only [App.connect] at hrun
    split at hrun
    · cases hrun
      exact h.stay hw hc (ht.modify.call hlt) rfl
        (.of_read rfl) rfl
    · cases hrun
      exact h.failed ⟨_, hc, rfl⟩ (ht.modify.modify.finish hlt) rfl
        (fun hclean => ⟨hclean.toml, hclean.config, hclean.rows, hclean.rates⟩) rfl rfl
  | connected text err =>
    cases err with
    | some err =>
      cases hrun
      exact h.failed ⟨_, hc, rfl⟩ (ht.modify.finish hlt) rfl
        (fun hclean => ⟨hclean.toml, hclean.config, hclean.rows, hclean.rates⟩) rfl rfl
    | none =>
      cases hrun
      exact h.succeeded ⟨_, hc, rfl⟩ ((startPolling_turn ht.modify).spawn.finish hlt) rfl rfl rfl rfl
  | validate text => cases hrun
  | connect text => cases hrun

/-- A `disconnect()` begins and cancels what is live. -/
theorem leaving (h : Tidy s) (hnc : ∀ i, ¬ Has s .connect i)
    (hhas : ∀ r i, Has m r i ↔ Has s r i ∨ r = .disconnect ∧ i = id)
    (hs : m.heap.connectionState = .disconnecting) (hp : m.heap.pollTask = none)
    (hcan : m.cancelled = s.heap.pollTask.toList ++ (s.heap.restartTask.toList ++ s.cancelled)) :
    Tidy m := by
  have hold {r : Role} {i : Nat} (hr : r ≠ .disconnect) (hi : Has m r i) : Has s r i := by
    rcases (hhas r i).mp hi with hi | ⟨he, -⟩
    · exact hi
    · exact absurd he hr
  have hcancelled {i : Nat} (hi : i ∉ m.cancelled) :
      s.heap.pollTask ≠ some i ∧ s.heap.restartTask ≠ some i ∧ i ∉ s.cancelled := by
    rw [hcan] at hi
    simpa [not_or] using hi
  constructor
  · exact fun he => absurd he (hs.trans_ne (by decide))
  · exact fun i hi => absurd (hold (by decide) hi) (hnc i)
  · exact fun i _ hi => absurd (hold (by decide) hi) (hnc i)
  · exact fun _ _ => .inl hs
  · exact fun _ => ⟨id, (hhas _ _).mpr (.inr ⟨rfl, rfl⟩)⟩
  · intro i hl
    obtain ⟨-, hr, hi⟩ := hcancelled hl.2
    exact absurd (h.restart i ⟨hold (by decide) hl.1, hi⟩).2.1 hr
  · exact fun he => absurd he (hs.trans_ne (by decide))
  · exact fun he => absurd he (hs.trans_ne (by decide))
  · exact fun _ => hp
  · intro i hl
    obtain ⟨hne, -, hi⟩ := hcancelled hl.2
    exact absurd (h.polls i ⟨hold (by decide) hl.1, hi⟩) hne

/-- A `disconnect()` ends and clears everything. -/
theorem left (h : Tidy s) (hi : Has s .disconnect id) (ht : s.Turn (some id) none [] m)
    (hs : m.heap.connectionState = .disconnected) (hclean : Clean m.heap)
    (hp : m.heap.pollTask = s.heap.pollTask) (hcan : m.cancelled = s.cancelled) : Tidy m := by
  have hst := h.disconnect id hi
  have hne : s.heap.connectionState ≠ .connected := by
    rcases hst with he | he <;> simp [he]
  have hlive {r : Role} {i : Nat} (hl : Live m r i) : Live s r i :=
    ⟨((has_finish ht).mp hl.1).1, hcan ▸ hl.2⟩
  refine h.ended (fun _ hj => ((has_finish ht).mp hj).1) (fun _ hj => ((has_finish ht).mp hj).1) hs
    (fun _ => hclean) (hp.trans (h.still hne)) (fun i hl => ?_) fun i hl => ?_
  · have he := (h.restart i (hlive hl)).1
    rcases hst with hst | hst <;> simp [hst] at he
  · exact h.not_polling hne i (hlive hl)

theorem disconnect_run {pc : DisconnectAt} (h : Tidy s) (hw : s.WellFormed)
    (hc : ⟨id, .disconnect pc⟩ ∈ s.tasks) (hord : (Code.disconnect pc).Orderly s id)
    (hrun : App.disconnect s id pc = some m) : Tidy m := by
  have hlt : id < s.next := hw.lt _ hc
  have ht := Actor.Turn.start hw hc
  cases pc with
  | start =>
    simp only [App.disconnect] at hrun
    split at hrun
    · next hs =>
      have hnc (i : Nat) (hi : Has s .connect i) : False := by
        rcases hs with hs | hs
        · rcases (h.connect i hi).2.1 with he | he <;> simp [hs] at he
        · exact hord hs (busy_iff.mpr ⟨i, hi⟩)
      cases hrun
      exact h.leaving hnc (fun _ _ => has_begin hw hc rfl
        ((stopPolling_turn ht.cancel.modify).call hlt) rfl) rfl rfl rfl
    · cases hrun
      exact h.finish hw hc (ht.finish hlt) (by simp [Code.role])
        (.of_read rfl) fun _ hi => hi
  | disconnected =>
    cases hrun
    exact h.left ⟨_, hc, rfl⟩ (ht.modify.finish hlt) rfl ⟨rfl, rfl, rfl, rfl⟩ rfl rfl
  | disconnect => cases hrun

/-- The restart task gives up. A task that has been cancelled does so only on its first turn. -/
theorem gaveUp (h : Tidy s) (hw : s.WellFormed) (hi : Has s .restart id)
    (hlive : Live s .restart id ∨ maxAutoRestart ≤ s.heap.restartFailures)
    (hord : s.heap.rateSamples = [] ∧ s.heap.configChanged = false ∨ Busy s .disconnect)
    (ht : s.Turn (some id) none [] m) (hs : m.heap.connectionState = .disconnected)
    (htoml : m.heap.runningToml = none) (hd : m.heap.configChanged = s.heap.configChanged ∧
      m.heap.rows = s.heap.rows ∧ m.heap.rateSamples = s.heap.rateSamples)
    (hp : m.heap.pollTask = s.heap.pollTask) (hcan : m.cancelled = s.cancelled) : Tidy m := by
  obtain ⟨hc, hrows, hr⟩ := hd
  have hsub {r : Role} {i : Nat} (hl : Has m r i) : Has s r i := ((has_finish ht).mp hl).1
  have hne : s.heap.connectionState ≠ .connected := by
    intro he
    rcases hlive with hl | hmax
    · have hst := (h.restart id hl).1
      simp [he] at hst
    · exact absurd (h.connected he) (Nat.not_lt.mpr hmax)
  have hkeep {i : Nat} (hd : Has s .disconnect i) : Has m .disconnect i := by
    refine (has_finish ht).mpr ⟨hd, ?_⟩
    rintro rfl
    cases hi.unique hd hw
  -- the rows are gone unless a `disconnect()` is there to clear them
  have hnorows (hno : ∀ i, ¬ Has m .disconnect i) : s.heap.rows = [] := by
    cases hst : s.heap.connectionState with
    | disconnected => exact (h.clean hst fun i hd => hno i (hkeep hd)).rows
    | connecting => exact h.rows hst
    | connected => exact absurd hst hne
    | disconnecting =>
      obtain ⟨i, hd⟩ := h.disconnecting hst
      exact absurd (hkeep hd) (hno i)
  refine h.ended (fun _ => hsub) (fun _ => hsub) hs (fun hno => ?_)
    (hp.trans (h.still hne)) (fun i hl => ?_) fun i hl => ?_
  · rcases hord with ⟨hrates, hconfig⟩ | hbusy
    · exact ⟨htoml, hc.trans hconfig, hrows.trans (hnorows hno), hr.trans hrates⟩
    · obtain ⟨i, hd⟩ := busy_iff.mp hbusy
      exact absurd (hkeep hd) (hno i)
  -- no other restart task is live: there is one, or the failures are used up
  · obtain ⟨-, hri, hf, -⟩ := h.restart i ⟨hsub hl.1, hcan ▸ hl.2⟩
    rcases hlive with hlive | hmax
    · have hid := (h.restart id hlive).2.1
      rw [hri] at hid
      exact ((has_finish ht).mp hl.1).2 (Option.some.inj hid)
    · omega
  · exact h.not_polling hne i ⟨hsub hl.1, hcan ▸ hl.2⟩

/-- The restart task succeeds. -/
theorem restarted (h : Tidy s) (hi : Live s .restart id)
    (ht : s.Turn (some id) none [.poll .start] m)
    (hs : m.heap.connectionState = .connected) (hf : m.heap.restartFailures = 0)
    (hp : m.heap.pollTask = some s.next)
    (hcan : m.cancelled = s.heap.pollTask.toList ++ s.cancelled) : Tidy m := by
  obtain ⟨hst, hid, -, hnc⟩ := h.restart id hi
  have hold {r : Role} {i : Nat} (hr : r ≠ .poll) (hl : Has m r i) : Has s r i ∧ i ≠ id := by
    rcases (has_turn ht).mp hl with ⟨hold, hne⟩ | ⟨-, c, hc, -⟩ | ⟨c, hcreated, hrole⟩
    · exact ⟨hold, fun he => hne (by rw [he])⟩
    · cases hc
    · have hpoll : c = .poll .start := List.mem_singleton.mp hcreated.mem
      rw [hpoll] at hrole
      exact absurd (Option.some.inj hrole).symm hr
  refine shown hs hf (fun i hc => ?_) (fun i hd => ?_) (fun i hl => ?_) fun i hl => ?_
  · exact hnc i (hold (by decide) hc).1
  · rcases h.disconnect i (hold (by decide) hd).1 with he | he <;> simp [hst] at he
  · obtain ⟨hr, hne⟩ := hold (by decide) hl.1
    have hri := (h.restart i ⟨hr, fun hin => hl.2 (hcan ▸ List.mem_append_right _ hin)⟩).2.1
    rw [hid] at hri
    exact hne (Option.some.inj hri).symm
  · rw [hp, h.polls_started ht rfl (by simp) hcan i hl]

/-- The head of the loop, after `restartFailures` has perhaps been counted up. -/
theorem restartLoop_run {toml : String} {pc : RestartAt} {s₁ : Main} (h : Tidy s)
    (hw : s.WellFormed) (hc : ⟨id, .restart toml pc⟩ ∈ s.tasks)
    (ht : s.Turn (some id) (some (.restart toml pc)) [] s₁) (hcan : s₁.cancelled = s.cancelled)
    (hheap : s₁.heap = { s.heap with restartFailures := s₁.heap.restartFailures })
    (hlive : Live s .restart id ∨ s₁.heap.restartFailures = s.heap.restartFailures)
    (hord : maxAutoRestart ≤ s₁.heap.restartFailures →
      s.heap.rateSamples = [] ∧ s.heap.configChanged = false ∨ Busy s .disconnect) :
    Tidy (restartLoop s₁ id toml) := by
  have hlt : id < s.next := hw.lt _ hc
  unfold restartLoop
  dsimp only
  split
  · next hmax =>
    have hmax' : maxAutoRestart ≤ s₁.heap.restartFailures := by omega
    have hgives : Live s .restart id ∨ maxAutoRestart ≤ s.heap.restartFailures := by
      rcases hlive with hlive | he
      · exact .inl hlive
      · exact .inr (he ▸ hmax')
    refine h.gaveUp hw ⟨_, hc, rfl⟩ hgives (hord hmax') (ht.modify.finish hlt) rfl rfl
      ⟨?_, ?_, ?_⟩ ?_ hcan
    all_goals
      simp only [Actor.heap_finish, Actor.heap_modify]
      rw [hheap]
  · next hmax =>
    refine h.stay hw hc (ht.modify.suspend hlt) rfl ⟨?_, ?_, ?_, ?_, ?_, .inr ?_, ?_, ?_⟩ hcan
    case refine_6 =>
      simp only [Actor.heap_suspend, Actor.heap_modify]
      omega
    all_goals
      simp only [Actor.heap_suspend, Actor.heap_modify]
      rw [hheap]

theorem restart_run {toml : String} {pc : RestartAt} (h : Tidy s) (hw : s.WellFormed)
    (hc : ⟨id, .restart toml pc⟩ ∈ s.tasks) (hord : (Code.restart toml pc).Orderly s id)
    (hrun : App.restart s id toml pc = some m) : Tidy m := by
  have hlt : id < s.next := hw.lt _ hc
  have ht := Actor.Turn.start hw hc
  cases pc with
  | start =>
    cases hrun
    exact h.restartLoop_run hw hc ht rfl rfl (.inr rfl) hord
  | sleep =>
    simp only [App.restart] at hrun
    split at hrun
    · cases hrun
      exact h.finish hw hc (ht.finish hlt) (by simp [Code.role])
        (.of_read rfl) fun _ hi => hi
    · cases hrun
      exact h.stay hw hc (ht.call hlt) rfl (.of_read rfl) rfl
  | connected err =>
    simp only [App.restart] at hrun
    split at hrun
    · cases hrun
      exact h.finish hw hc (ht.finish hlt) (by simp [Code.role])
        (.of_read rfl) fun _ hi => hi
    · next hcan =>
      rw [Actor.isCancelled_eq_true] at hcan
      have hlive : Live s .restart id := ⟨⟨_, hc, rfl⟩, hcan⟩
      cases err with
      | none =>
        cases hrun
        exact h.restarted hlive ((startPolling_turn ht.modify).finish hlt) rfl rfl rfl rfl
      | some err =>
        cases hrun
        exact h.restartLoop_run hw hc ht.modify rfl rfl (.inl hlive) fun hmax => hord ⟨hcan, hmax⟩
  | connect => cases hrun

/-! The other tasks -/

theorem revalidate_run {pc : RevalidateAt} (h : Tidy s) (hw : s.WellFormed)
    (hc : ⟨id, .revalidate pc⟩ ∈ s.tasks) (hrun : revalidate s id file pc = some m) : Tidy m := by
  have hlt : id < s.next := hw.lt _ hc
  have ht := Actor.Turn.start hw hc
  cases pc with
  | start =>
    cases file with
    | none =>
      cases hrun
      exact h.finish hw hc (ht.modify.finish hlt) (by simp [Code.role])
        (.of_read rfl) fun _ hi => hi
    | some text =>
      cases hrun
      exact h.stay hw hc (ht.call hlt) rfl (.of_read rfl) rfl
  | validated text v =>
    simp only [revalidate] at hrun
    split at hrun
    · next hs _ =>
      cases hrun
      refine h.data (fun r i => ?_) hs hs rfl rfl rfl
      exact has_done hw hc rfl (ht.modify.modify.finish hlt)
    · cases hrun
      exact h.finish hw hc (ht.modify.finish hlt) (by simp [Code.role])
        (.of_read rfl) fun _ hi => hi
  | validate text => cases hrun

/-- Such a task has no role, and no other field is read here. -/
theorem errand {c : Code} (h : Tidy s) (hw : s.WellFormed) (hmem : ⟨id, c⟩ ∈ s.tasks)
    (hc : c.isErrand = true) (he : Errand s id m) : Tidy m := by
  have hrole := Code.role_of_isErrand hc
  have hsame : SameData s.heap m.heap := by
    apply SameData.of_read
    rw [he.heap]
    rfl
  obtain ⟨d, ht, hd⟩ := he.turn
  cases d with
  | none => exact h.finish hw hmem ht (by simp [hrole]) hsame fun _ hi => he.cancelled ▸ hi
  | some c' =>
    have hrole' := Code.role_of_isErrand (hd c' rfl)
    exact h.stay hw hmem ht (hrole'.trans hrole.symm) hsame he.cancelled

theorem poll_run {pc : PollAt} (h : Tidy s) (hw : s.WellFormed) (hc : ⟨id, .poll pc⟩ ∈ s.tasks)
    (hrun : App.poll s id now pc = some m) : Tidy m := by
  have hlt : id < s.next := hw.lt _ hc
  have ht := Actor.Turn.start hw hc
  cases pc with
  | start | sleep =>
    simp only [App.poll] at hrun
    split at hrun
    · cases hrun
      exact h.finish hw hc (ht.finish hlt) (by simp [Code.role])
        (.of_read rfl) fun _ hi => hi
    · split at hrun
      · cases hrun
        exact h.stay hw hc (ht.call hlt) rfl (.of_read rfl) rfl
      · cases hrun
        exact h.stay hw hc (ht.suspend hlt) rfl (.of_read rfl) rfl
  | answered env =>
    simp only [App.poll] at hrun
    split at hrun
    · next hs =>
      cases hrun
      refine h.data (fun r i => ?_) hs ?_ ?_ ?_ rfl
      · exact has_stay hw hc (ht.modify.suspend hlt) rfl
      · exact (polled_connectionState ..).trans hs
      · exact polled_restartFailures ..
      · exact polled_pollTask ..
    · cases hrun
      exact h.stay hw hc (ht.suspend hlt) rfl (.of_read rfl) rfl
  | status => cases hrun

theorem turn_run {c : Code} (h : Tidy s) (hw : s.WellFormed) (hc : s.code? id = some c)
    (hord : c.Orderly s id) (hrun : turn s id file now c = some m) : Tidy m := by
  have hmem := Actor.mem_of_code? hc
  cases c with
  | connect pc => exact h.connect_run hw hmem hord hrun
  | disconnect pc => exact h.disconnect_run hw hmem hord hrun
  | revalidate pc => exact h.revalidate_run hw hmem hrun
  | refresh pc => exact h.errand hw hmem rfl (refresh_errand hw hmem hrun)
  | install pc => exact h.errand hw hmem rfl (install_errand hw hmem hrun)
  | uninstall pc => exact h.errand hw hmem rfl (uninstall_errand hw hmem hrun)
  | restart toml pc => exact h.restart_run hw hmem hord hrun
  | poll pc => exact h.poll_run hw hmem hrun

/-! ### The events -/

/-- The core of the connection that is shown has exited, and is restarted. -/
theorem restarts {toml : String} (h : Tidy s)
    (hst : s.heap.connectionState = .connected)
    (ht : s.Turn none none [.restart toml .start] m)
    (hs : m.heap.connectionState = .connecting) (hrows : m.heap.rows = [])
    (hf : m.heap.restartFailures = s.heap.restartFailures) (hp : m.heap.pollTask = none)
    (hr : m.heap.restartTask = some s.next)
    (hcan : m.cancelled = s.heap.restartTask.toList ++ (s.heap.pollTask.toList ++ s.cancelled)) :
    Tidy m := by
  have hhas {r : Role} {i : Nat} (hi : Has m r i) : Has s r i ∨ r = .restart ∧ i = s.next := by
    rcases (has_turn ht).mp hi with ⟨hold, -⟩ | ⟨hown, -⟩ | ⟨c, hcreated, hrole⟩
    · exact .inl hold
    · cases hown
    · have hcode : c = .restart toml .start := List.mem_singleton.mp hcreated.mem
      rw [hcode] at hrole
      have hge : s.next ≤ i := hcreated.le
      have hlt : i < s.next + 1 := hcreated.lt
      exact .inr ⟨(Option.some.inj hrole).symm, by omega⟩
  have hold {r : Role} {i : Nat} (hne : r ≠ .restart) (hi : Has m r i) : Has s r i := by
    rcases hhas hi with hi | ⟨he, -⟩
    · exact hi
    · exact absurd he hne
  -- while the connection is shown, neither operation is under way
  have hnc (i : Nat) (hi : Has m .connect i) : False := by
    rcases (h.connect i (hold (by decide) hi)).2.1 with he | he <;> simp [hst] at he
  have hnd (i : Nat) (hi : Has m .disconnect i) : False := by
    rcases h.disconnect i (hold (by decide) hi) with he | he <;> simp [hst] at he
  constructor
  · exact fun he => absurd he (hs.trans_ne (by decide))
  · exact fun i hi => (hnc i hi).elim
  · exact fun i _ hi => (hnc i hi).elim
  · exact fun i hi => (hnd i hi).elim
  · exact fun he => absurd he (hs.trans_ne (by decide))
  · intro i hl
    rcases hhas hl.1 with hi | ⟨-, rfl⟩
    -- a restart task that was live before would contradict `.connected`
    · have hlive : Live s .restart i := by
        refine ⟨hi, fun hin => hl.2 ?_⟩
        rw [hcan]
        simp [hin]
      have he := (h.restart i hlive).1
      simp [hst] at he
    · exact ⟨hs, hr, hf ▸ h.connected hst, hnc⟩
  · exact fun he => absurd he (hs.trans_ne (by decide))
  · exact fun _ => hrows
  · exact fun _ => hp
  · intro i hl
    have hin : i ∉ s.heap.pollTask.toList ∧ i ∉ s.cancelled := by
      have hnin := hl.2
      rw [hcan] at hnin
      simp only [List.mem_append, not_or] at hnin
      exact hnin.2
    have hpoll := h.polls i ⟨hold (by decide) hl.1, hin.2⟩
    exact absurd (by simp [hpoll]) hin.1

theorem handleCoreExit_run (h : Tidy s)
    (hord : s.heap.connectionState = .connected → s.heap.runningToml ≠ none →
      s.heap.autoRestartEnabled = true) : Tidy (handleCoreExit s) := by
  have ht : s.Turn none none [] s := .user
  unfold handleCoreExit
  split
  · next toml hs htoml =>
    dsimp only
    split
    · exact h.restarts hs (stopPolling_turn ht).modify.modify.cancel.modify.spawn rfl rfl rfl rfl
        rfl rfl
    · next hoff => exact absurd (hord hs (by simp [htoml])) hoff
  · exact h

theorem handleKicked_run (h : Tidy s)
    (hord : s.heap.configChanged = false ∨ Busy s .disconnect) : Tidy (handleKicked s) := by
  have ht : s.Turn none none [] (handleKicked s) :=
    (stopPolling_turn (Actor.Turn.user.cancel (i := s.heap.restartTask))).modify
  have hsub {r : Role} {i : Nat} (hi : Has (handleKicked s) r i) : Has s r i :=
    has_of_turn ht (by simp) (by simp) hi
  have hcancelled {i : Nat} (hi : i ∉ (handleKicked s).cancelled) :
      s.heap.pollTask ≠ some i ∧ s.heap.restartTask ≠ some i ∧ i ∉ s.cancelled := by
    have hin : i ∉ s.heap.pollTask.toList ++ (s.heap.restartTask.toList ++ s.cancelled) := hi
    simpa [not_or] using hin
  refine h.ended (fun _ => hsub) (fun _ => hsub) rfl (fun hno => ?_) rfl (fun i hl => ?_)
    fun i hl => ?_
  · rcases hord with hconfig | hbusy
    · exact ⟨rfl, hconfig, rfl, rfl⟩
    · obtain ⟨i, hi⟩ := busy_iff.mp hbusy
      exact absurd (has_of_ne ht hi (by simp)) (hno i)
  · obtain ⟨-, hne, hi⟩ := hcancelled hl.2
    exact hne (h.restart i ⟨hsub hl.1, hi⟩).2.1
  · obtain ⟨hne, -, hi⟩ := hcancelled hl.2
    exact hne (h.polls i ⟨hsub hl.1, hi⟩)

theorem handle_run {ev : BridgeEvent} (h : Tidy s) (hord : ev.Orderly s) :
    Tidy (handle s ev) := by
  have ht : s.Turn none none [] s := .user
  cases ev with
  | connected v c p =>
    simp only [handle, startupRestoreIfNeeded]
    split
    · exact h.quiet ht.spawn (by simp [Code.role]) (.of_read rfl) rfl
    · split
      · exact h.quiet ht.spawn.modify.spawn (by simp [Code.role])
          (.of_read rfl) rfl
      · exact h.quiet ht.spawn.modify (by simp [Code.role])
          (.of_read rfl) rfl
  | disconnected =>
    exact h.quiet ht.spawn (by simp [Code.role]) (.of_read rfl) rfl
  | coreExited code signal => exact h.handleCoreExit_run hord
  | kicked => exact h.handleKicked_run hord
  | error code message =>
    simp only [handle]
    exact h.quiet ht.modify (by simp) (.of_read rfl) rfl
  | coreStarted p q | coreStopped r | busy o | unknown t | malformed j => exact h

end Tidy

/-! ## Runs -/

/-- A reply leaves the task in its role. -/
theorem answered_role {c c' : Code} {r : Reply} (h : c.answered r = some c') : c'.role = c.role := by
  unfold Code.answered at h
  split at h
  all_goals first
    | cases h; rfl
    | cases h

namespace Tidy

theorem perform_run {r : Reply} (h : Tidy s) (hw : s.WellFormed)
    (hrun : App.perform s r = some m) : Tidy m := by
  unfold App.perform at hrun
  split at hrun
  · next id queue hq =>
    obtain ⟨c, hc, hrun⟩ := Option.bind_eq_some_iff.mp hrun
    obtain ⟨c', hc', rfl⟩ := Option.map_eq_some_iff.mp hrun
    have hmem := Actor.mem_of_code? hc
    have ht : s.Turn (some id) (some c) [] { s with queue := queue } :=
      (Actor.Turn.start hw hmem).of_eq rfl rfl
    exact h.stay hw hmem (ht.suspend (hw.lt _ hmem)) (answered_role hc')
      (.of_read rfl) rfl
  · cases hrun

/-- **Every orderly step keeps the invariant.** -/
theorem step {s s' : State} {a : Action} (h : Tidy s.main) (hw : s.main.WellFormed)
    (hord : Orderly s a) (hs : App.step s a = some s') : Tidy s'.main := by
  have ht : s.main.Turn none none [] s.main := .user
  have hsame : SameData s.main.heap s.main.heap := .of_read rfl
  cases a with
  | toggle =>
    cases hs
    show Tidy (toggleConnection s.main)
    unfold toggleConnection
    split
    · exact h.quiet ht.spawn (by simp [Code.role]) hsame rfl
    · exact h.quiet ht.spawn (by simp [Code.role]) hsame rfl
    · exact h
    · exact h
  | becomeActive =>
    cases hs
    exact h.quiet ht.spawn.spawn (by simp [Code.role]) hsame rfl
  | openSettings | install | uninstall =>
    cases hs
    exact h.quiet ht.spawn (by simp [Code.role]) hsame rfl
  | setAutoRestart on | setAutoConnectOnLaunch on | launchAtLoginFailed description =>
    cases hs
    simp only [State.setMain]
    exact h.quiet ht.modify (by simp) (.of_read rfl) rfl
  | answerPrompt takeover =>
    -- without an open prompt there is nothing to answer
    simp only [App.step, State.closePrompt] at hs
    split at hs
    · cases hs
      cases takeover with
      | true => exact h.quiet ht.post (by simp) hsame rfl
      | false => exact h
    · cases hs
  | deliver ev =>
    cases hs
    exact h
  | handle =>
    simp only [App.step, State.handleNext] at hs
    split at hs
    · next ev events he =>
      split at hs
      · cases hs
      · cases hs
        exact h.handle_run (hord ev (by simp [he]))
    · cases hs
  | perform r =>
    obtain ⟨m, hm, rfl⟩ := Option.map_eq_some_iff.mp hs
    exact h.perform_run hw hm
  | performPosted =>
    obtain ⟨m, hm, rfl⟩ := Option.map_eq_some_iff.mp hs
    unfold App.performPosted at hm
    split at hm
    · cases hm
      exact h.quiet (ht.of_eq rfl rfl) (by simp) (.of_read rfl) rfl
    · cases hm
  | run id file now =>
    obtain ⟨m, hm, rfl⟩ := Option.map_eq_some_iff.mp hs
    obtain ⟨c, hc, hm⟩ := Option.bind_eq_some_iff.mp hm
    exact h.turn_run hw hc (hord c (by simp [hc])) hm

end Tidy

/-- Nothing runs in the beginning. -/
theorem tidy_start (d : Defaults) : Tidy (start d).main := by
  have hno (r : Role) (i : Nat) : ¬ Has (start d).main r i := by
    rintro ⟨c, hmem, hr⟩
    simp only [start, onBecomeActive, Actor.spawn, List.nil_append, List.cons_append,
      List.mem_cons, List.not_mem_nil, or_false, Task.mk.injEq] at hmem
    rcases hmem with ⟨-, rfl⟩ | ⟨-, rfl⟩ <;> cases hr
  constructor
  · exact fun _ _ => ⟨rfl, rfl, rfl, rfl⟩
  · exact fun i hi => absurd hi (hno _ i)
  · exact fun i _ hi => absurd hi (hno _ i)
  · exact fun i hi => absurd hi (hno _ i)
  · exact fun he => by cases he
  · exact fun i hi => absurd hi.1 (hno _ i)
  · exact fun he => by cases he
  · exact fun he => by cases he
  · exact fun _ => rfl
  · exact fun i hi => absurd hi.1 (hno _ i)

end EasyTierMac.App
