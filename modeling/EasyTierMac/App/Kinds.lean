import EasyTierMac.App.Moves
import EasyTierMac.Handles

/-!
# Work of which there is one at a time

`AppModel` keeps the handles of its polling task and of its restart task, and cancels the one
it has before it creates the next one; `installing` and `uninstalling` keep a second
`installSupervisor()` or `uninstallSupervisor()` from beginning. `SingleFlight` says that this
is enough, whatever the order of the turns, and that the restart task gives up in time.
-/

namespace EasyTierMac.App

open Actor (Holds Handle Flag Guarded holds_user holds_stay holds_sub holds_created holds_of_turn
  holds_begin holds_end)

inductive Kind
  | restart
  /-- A restart task after its first turn: it has announced an attempt. -/
  | retry
  | poll
  /-- An `installSupervisor()` that has begun. -/
  | install
  | uninstall
  deriving DecidableEq, Repr

def Code.is : Kind → Code → Bool
  | .restart, .restart _ _ => true
  | .retry, .restart _ pc => decide (pc ≠ .start)
  | .poll, .poll _ => true
  | .install, .install pc => decide (pc ≠ .start)
  | .uninstall, .uninstall pc => decide (pc ≠ .start)
  | _, _ => false

/-- At most one polling task and one restart task have not been cancelled, an installation or
an uninstallation is under way exactly while its flag is up, and a restart task has attempts
left after it has announced one. -/
structure SingleFlight (s : Main) : Prop where
  restart : Handle (Code.is .restart) AppModel.restartTask s
  poll : Handle (Code.is .poll) AppModel.pollTask s
  install : Flag (Code.is .install) AppModel.installing s
  uninstall : Flag (Code.is .uninstall) AppModel.uninstalling s
  attempts : Guarded (Code.is .retry) (fun m => m.restartFailures < maxAutoRestart) s
  failures : s.heap.restartFailures ≤ maxAutoRestart

/-- What the invariant reads, apart from the handles. -/
structure SameWork (m m' : AppModel) : Prop where
  install : m'.installing = m.installing
  uninstall : m'.uninstalling = m.uninstalling
  failures : m'.restartFailures = m.restartFailures ∨ m'.restartFailures = 0

/-- What the handles and the flags say. -/
def AppModel.handles (m : AppModel) := (m.restartTask, m.pollTask, m.installing, m.uninstalling)

theorem AppModel.handles_eq {m m' : AppModel} (h : m'.handles = m.handles) :
    m'.restartTask = m.restartTask ∧ m'.pollTask = m.pollTask ∧ m'.installing = m.installing ∧
      m'.uninstalling = m.uninstalling := by
  simpa only [AppModel.handles, Prod.mk.injEq] using h

theorem SameWork.attempts {m m' : AppModel} (h : SameWork m m')
    (hlt : m.restartFailures < maxAutoRestart) : m'.restartFailures < maxAutoRestart := by
  rcases h.failures with he | he
  · omega
  · rw [he]
    decide

theorem SameWork.bound {m m' : AppModel} (h : SameWork m m')
    (hle : m.restartFailures ≤ maxAutoRestart) : m'.restartFailures ≤ maxAutoRestart := by
  rcases h.failures with he | he
  · omega
  · omega

namespace SingleFlight

variable {s m : Main} {id : Nat} {c : Code} {d : Option Code} {new : List Code}

/-! ## Kinds of turns -/

/-- The task stays of the kinds it is of, or ends as one of no kind, and the handles stay. -/
theorem stay (h : SingleFlight s) (hw : s.WellFormed) (hmem : ⟨id, c⟩ ∈ s.tasks)
    (ht : s.Turn (some id) d [] m) (hd : ∀ k, d.any (Code.is k) = c.is k)
    (hwork : SameWork s.heap m.heap) (hrestart : m.heap.restartTask = s.heap.restartTask)
    (hpoll : m.heap.pollTask = s.heap.pollTask) (hcan : ∀ i ∈ s.cancelled, i ∈ m.cancelled) :
    SingleFlight m := by
  have hsame (k : Kind) (i : Nat) : Holds (Code.is k) m i ↔ Holds (Code.is k) s i :=
    holds_stay hw hmem ht (by simp) (hd k)
  constructor
  · exact h.restart.keep (fun i => (hsame _ i).mp) hcan hrestart
  · exact h.poll.keep (fun i => (hsame _ i).mp) hcan hpoll
  · exact h.install.keep (hsame _) hwork.install
  · exact h.uninstall.keep (hsame _) hwork.uninstall
  · exact h.attempts.keep (fun i => (hsame _ i).mp) hcan hwork.attempts
  · exact hwork.bound h.failures

/-- A task that is not installing ends. -/
theorem done (h : SingleFlight s) (hw : s.WellFormed) (hmem : ⟨id, c⟩ ∈ s.tasks)
    (ht : s.Turn (some id) none [] m) (hi : c.is .install = false) (hu : c.is .uninstall = false)
    (hwork : SameWork s.heap m.heap) (hrestart : m.heap.restartTask = s.heap.restartTask)
    (hpoll : m.heap.pollTask = s.heap.pollTask) (hcan : ∀ i ∈ s.cancelled, i ∈ m.cancelled) :
    SingleFlight m := by
  have hsub (k : Kind) (i : Nat) (hi : Holds (Code.is k) m i) : Holds (Code.is k) s i :=
    holds_sub hw hmem ht (by simp) (by simp) hi
  constructor
  · exact h.restart.keep (hsub _) hcan hrestart
  · exact h.poll.keep (hsub _) hcan hpoll
  · refine h.install.keep (fun i => ?_) hwork.install
    exact holds_stay hw hmem ht (by simp) hi.symm
  · refine h.uninstall.keep (fun i => ?_) hwork.uninstall
    exact holds_stay hw hmem ht (by simp) hu.symm
  · exact h.attempts.keep (hsub _) hcan hwork.attempts
  · exact hwork.bound h.failures

/-- Tasks of no kind are created, by the user or by an event. -/
theorem user (h : SingleFlight s) (ht : s.Turn none none new m)
    (hnew : ∀ c ∈ new, ∀ k, c.is k = false) (hwork : SameWork s.heap m.heap)
    (hrestart : m.heap.restartTask = s.heap.restartTask)
    (hpoll : ∀ i, s.heap.pollTask = some i → m.heap.pollTask = some i ∨ i ∈ m.cancelled)
    (hcan : ∀ i ∈ s.cancelled, i ∈ m.cancelled) : SingleFlight m := by
  have hsame (k : Kind) (i : Nat) : Holds (Code.is k) m i ↔ Holds (Code.is k) s i :=
    holds_user ht fun c hc => hnew c hc k
  constructor
  · exact h.restart.keep (fun i => (hsame _ i).mp) hcan hrestart
  · intro i hi hlive
    have hname := h.poll i ((hsame _ i).mp hi) fun hin => hlive (hcan i hin)
    exact (hpoll i hname).resolve_right hlive
  · exact h.install.keep (hsame _) hwork.install
  · exact h.uninstall.keep (hsame _) hwork.uninstall
  · exact h.attempts.keep (fun i => (hsame _ i).mp) hcan hwork.attempts
  · exact hwork.bound h.failures

/-- `startPolling` at the end of a task that has connected. -/
theorem connected (h : SingleFlight s) (hw : s.WellFormed) (hmem : ⟨id, c⟩ ∈ s.tasks)
    (ht : s.Turn (some id) none (.poll .start :: new) m) (hnew : ∀ c ∈ new, ∀ k, c.is k = false)
    (hi : c.is .install = false) (hu : c.is .uninstall = false)
    (hwork : SameWork s.heap m.heap) (hrestart : m.heap.restartTask = s.heap.restartTask)
    (hpoll : m.heap.pollTask = some s.next)
    (hcan : m.cancelled = s.heap.pollTask.toList ++ s.cancelled) : SingleFlight m := by
  have hcan' : ∀ i ∈ s.cancelled, i ∈ m.cancelled := by
    intro i hi
    rw [hcan]
    exact List.mem_append_right _ hi
  -- the polling task is of no other kind
  have hnew' (k : Kind) (hk : k ≠ .poll) : ∀ c ∈ Code.poll .start :: new, c.is k = false := by
    intro c hc
    rcases List.mem_cons.mp hc with rfl | hc
    · cases k with
      | poll => exact absurd rfl hk
      | restart | retry | install | uninstall => rfl
    · exact hnew c hc k
  have hsub (k : Kind) (hk : k ≠ .poll) (i : Nat) (hi : Holds (Code.is k) m i) :
      Holds (Code.is k) s i := holds_sub hw hmem ht (hnew' k hk) (by simp) hi
  constructor
  · exact h.restart.keep (hsub _ (by decide)) hcan' hrestart
  · refine h.poll.renew (fun i hi => ?_) hcan' fun i hi => ?_
    · rw [hpoll]
      have hown : ∀ j, some id = some j → (⟨j, c⟩ : Task Code) ∈ s.tasks := by
        intro j hj
        exact Option.some.inj hj ▸ hmem
      rcases holds_created hw hown ht (fun c hc => hnew c hc .poll) (by simp) hi with hold | he
      · exact .inl hold
      · rw [he]
        exact .inr rfl
    · rw [hcan, hi]
      simp
  · refine h.install.keep (fun i => ?_) hwork.install
    exact holds_stay hw hmem ht (hnew' _ (by decide)) hi.symm
  · refine h.uninstall.keep (fun i => ?_) hwork.uninstall
    exact holds_stay hw hmem ht (hnew' _ (by decide)) hu.symm
  · exact h.attempts.keep (hsub _ (by decide)) hcan' hwork.attempts
  · exact hwork.bound h.failures

/-! ## The functions -/

theorem sameWork_refl {a : AppModel} : SameWork a a := ⟨rfl, rfl, .inl rfl⟩

variable {file : Option String} {now : ℚ}

theorem connect_turn {pc : ConnectAt} (h : SingleFlight s) (hw : s.WellFormed)
    (hc : ⟨id, .connect pc⟩ ∈ s.tasks) (hrun : App.connect s id file pc = some m) :
    SingleFlight m := by
  have hlt : id < s.next := hw.lt _ hc
  have ht := Actor.Turn.start hw hc
  have hmono : ∀ i ∈ s.cancelled, i ∈ s.heap.restartTask.toList ++ s.cancelled :=
    fun i hi => List.mem_append_right _ hi
  cases pc with
  | start =>
    simp only [App.connect] at hrun
    split at hrun
    · cases file with
      | none =>
        cases hrun
        exact h.done hw hc (ht.cancel.modify.modify.finish hlt) rfl rfl ⟨rfl, rfl, .inl rfl⟩ rfl rfl
          hmono
      | some text =>
        cases hrun
        exact h.stay hw hc (ht.cancel.modify.call hlt) (fun k => by cases k <;> rfl)
          ⟨rfl, rfl, .inl rfl⟩ rfl rfl hmono
    · cases hrun
      exact h.done hw hc (ht.finish hlt) rfl rfl sameWork_refl rfl rfl fun _ hi => hi
  | validated text v =>
    simp only [App.connect] at hrun
    split at hrun
    · cases hrun
      exact h.stay hw hc (ht.modify.call hlt) (fun k => by cases k <;> rfl)
        ⟨rfl, rfl, .inl rfl⟩ rfl rfl fun _ hi => hi
    · cases hrun
      exact h.done hw hc (ht.modify.modify.finish hlt) rfl rfl ⟨rfl, rfl, .inl rfl⟩ rfl rfl
        fun _ hi => hi
  | connected text err =>
    cases err with
    | some err =>
      cases hrun
      exact h.done hw hc (ht.modify.finish hlt) rfl rfl ⟨rfl, rfl, .inl rfl⟩ rfl rfl fun _ hi => hi
    | none =>
      cases hrun
      refine h.connected hw hc ((startPolling_turn ht.modify).spawn.finish hlt) ?_ rfl rfl
        ⟨rfl, rfl, .inr rfl⟩ rfl rfl rfl
      intro c hc k
      rw [List.mem_singleton.mp hc]
      cases k <;> rfl
  | validate text => cases hrun
  | connect text => cases hrun

/-- A task that is not installing stops polling and stops at `c'`. -/
theorem stopped {c' : Code} (h : SingleFlight s) (hw : s.WellFormed) (hmem : ⟨id, c⟩ ∈ s.tasks)
    (ht : s.Turn (some id) (some c') [] m) (hd : ∀ k, c'.is k = c.is k)
    (hwork : SameWork s.heap m.heap) (hrestart : m.heap.restartTask = s.heap.restartTask)
    (hcan : ∀ i ∈ s.heap.pollTask.toList ++ s.cancelled, i ∈ m.cancelled) : SingleFlight m := by
  have hcan' : ∀ i ∈ s.cancelled, i ∈ m.cancelled := fun i hi =>
    hcan i (List.mem_append_right _ hi)
  have hsame (k : Kind) (i : Nat) : Holds (Code.is k) m i ↔ Holds (Code.is k) s i :=
    holds_stay hw hmem ht (by simp) (hd k)
  constructor
  · exact h.restart.keep (fun i => (hsame _ i).mp) hcan' hrestart
  · refine h.poll.renew (fun i hi => .inl ((hsame _ i).mp hi)) hcan' fun i hi => ?_
    apply hcan
    rw [hi]
    exact List.mem_cons_self
  · exact h.install.keep (hsame _) hwork.install
  · exact h.uninstall.keep (hsame _) hwork.uninstall
  · exact h.attempts.keep (fun i => (hsame _ i).mp) hcan' hwork.attempts
  · exact hwork.bound h.failures

theorem disconnect_turn {pc : DisconnectAt} (h : SingleFlight s) (hw : s.WellFormed)
    (hc : ⟨id, .disconnect pc⟩ ∈ s.tasks) (hrun : App.disconnect s id pc = some m) :
    SingleFlight m := by
  have hlt : id < s.next := hw.lt _ hc
  have ht := Actor.Turn.start hw hc
  cases pc with
  | start =>
    simp only [App.disconnect] at hrun
    split at hrun
    · cases hrun
      refine h.stopped hw hc ((stopPolling_turn ht.cancel.modify).call hlt)
        (fun k => by cases k <;> rfl) ⟨rfl, rfl, .inl rfl⟩ rfl ?_
      intro i hi
      show i ∈ s.heap.pollTask.toList ++ (s.heap.restartTask.toList ++ s.cancelled)
      rcases List.mem_append.mp hi with hi | hi
      · exact List.mem_append_left _ hi
      · exact List.mem_append_right _ (List.mem_append_right _ hi)
    · cases hrun
      exact h.done hw hc (ht.finish hlt) rfl rfl sameWork_refl rfl rfl fun _ hi => hi
  | disconnected =>
    cases hrun
    exact h.done hw hc (ht.modify.finish hlt) rfl rfl ⟨rfl, rfl, .inr rfl⟩ rfl rfl fun _ hi => hi
  | disconnect => cases hrun

/-- The restart task gives up: it is not there any more, and any other task has attempts left. -/
theorem gaveUp (h : SingleFlight s) (hw : s.WellFormed) (hmem : ⟨id, c⟩ ∈ s.tasks)
    (ht : s.Turn (some id) none [] m) (hi : c.is .install = false) (hu : c.is .uninstall = false)
    (hheap : m.heap.handles = s.heap.handles) (hcan : m.cancelled = s.cancelled)
    (hle : m.heap.restartFailures ≤ maxAutoRestart)
    (hothers : ∀ i, i ≠ id → Holds (Code.is .retry) s i → i ∉ s.cancelled →
      m.heap.restartFailures < maxAutoRestart) : SingleFlight m := by
  have hmono : ∀ i ∈ s.cancelled, i ∈ m.cancelled := fun i hi => hcan ▸ hi
  obtain ⟨hrestart, hpoll, hinstall, huninstall⟩ := AppModel.handles_eq hheap
  have hsub (k : Kind) (i : Nat) (hi : Holds (Code.is k) m i) : Holds (Code.is k) s i :=
    holds_sub hw hmem ht (by simp) (by simp) hi
  constructor
  · exact h.restart.keep (hsub _) hmono hrestart
  · exact h.poll.keep (hsub _) hmono hpoll
  · exact h.install.keep (fun i => holds_stay hw hmem ht (by simp) hi.symm) hinstall
  · exact h.uninstall.keep (fun i => holds_stay hw hmem ht (by simp) hu.symm) huninstall
  · intro i hi hlive
    rcases (holds_of_turn ht (by simp)).mp hi with ⟨hold, hne⟩ | ⟨-, hd⟩
    · exact hothers i (fun he => hne (by rw [he])) hold fun hin => hlive (hmono i hin)
    · simp at hd
  · exact hle

/-- The restart task has an attempt left, and announces it. -/
theorem announced {c' : Code} (h : SingleFlight s) (hw : s.WellFormed) (hmem : ⟨id, c⟩ ∈ s.tasks)
    (ht : s.Turn (some id) (some c') [] m) (hd : ∀ k, k ≠ .retry → c'.is k = c.is k)
    (hheap : m.heap.handles = s.heap.handles) (hcan : m.cancelled = s.cancelled)
    (hlt : m.heap.restartFailures < maxAutoRestart) : SingleFlight m := by
  have hmono : ∀ i ∈ s.cancelled, i ∈ m.cancelled := fun i hi => hcan ▸ hi
  obtain ⟨hrestart, hpoll, hinstall, huninstall⟩ := AppModel.handles_eq hheap
  have hsame (k : Kind) (hk : k ≠ .retry) (i : Nat) :
      Holds (Code.is k) m i ↔ Holds (Code.is k) s i := holds_stay hw hmem ht (by simp) (hd k hk)
  constructor
  · exact h.restart.keep (fun i => (hsame _ (by decide) i).mp) hmono hrestart
  · exact h.poll.keep (fun i => (hsame _ (by decide) i).mp) hmono hpoll
  · exact h.install.keep (hsame _ (by decide)) hinstall
  · exact h.uninstall.keep (hsame _ (by decide)) huninstall
  · exact fun _ _ _ => hlt
  · exact hlt.le

/-- The head of the loop of the restart task, after `restartFailures` has perhaps been counted
up. -/
theorem restartLoop_turn {toml : String} {pc : RestartAt} {s₁ : Main} (h : SingleFlight s)
    (hw : s.WellFormed) (hc : ⟨id, .restart toml pc⟩ ∈ s.tasks)
    (ht : s.Turn (some id) (some (.restart toml pc)) [] s₁) (hcan : s₁.cancelled = s.cancelled)
    (hheap : s₁.heap.handles = s.heap.handles) (hle : s₁.heap.restartFailures ≤ maxAutoRestart)
    (hothers : ∀ i, i ≠ id → Holds (Code.is .retry) s i → i ∉ s.cancelled →
      s₁.heap.restartFailures < maxAutoRestart) : SingleFlight (restartLoop s₁ id toml) := by
  have hlt : id < s.next := hw.lt _ hc
  unfold restartLoop
  dsimp only
  split
  · exact h.gaveUp hw hc (ht.modify.finish hlt) rfl rfl hheap hcan hle hothers
  · next hmax =>
    refine h.announced hw hc (ht.modify.suspend hlt) (fun k hk => ?_) hheap hcan ?_
    · cases k with
      | retry => exact absurd rfl hk
      | restart | poll | install | uninstall => rfl
    · show s₁.heap.restartFailures < maxAutoRestart
      omega

theorem restart_turn {toml : String} {pc : RestartAt} (h : SingleFlight s) (hw : s.WellFormed)
    (hc : ⟨id, .restart toml pc⟩ ∈ s.tasks) (hrun : App.restart s id toml pc = some m) :
    SingleFlight m := by
  have hlt : id < s.next := hw.lt _ hc
  have ht := Actor.Turn.start hw hc
  have hown : Holds (Code.is .restart) s id := ⟨_, hc, rfl⟩
  cases pc with
  | start =>
    cases hrun
    refine h.restartLoop_turn hw hc ht rfl rfl h.failures ?_
    intro i _ hi hlive
    exact h.attempts i hi hlive
  | sleep =>
    simp only [App.restart] at hrun
    split at hrun
    · cases hrun
      exact h.done hw hc (ht.finish hlt) rfl rfl sameWork_refl rfl rfl fun _ hi => hi
    · cases hrun
      exact h.stay hw hc (ht.call hlt) (fun k => by cases k <;> rfl) sameWork_refl rfl rfl
        fun _ hi => hi
  | connected err =>
    simp only [App.restart] at hrun
    split at hrun
    · cases hrun
      exact h.done hw hc (ht.finish hlt) rfl rfl sameWork_refl rfl rfl fun _ hi => hi
    · next hcan =>
      have hlive : id ∉ s.cancelled := fun hin => hcan (Actor.isCancelled_eq_true.mpr hin)
      cases err with
      | none =>
        cases hrun
        exact h.connected hw hc ((startPolling_turn ht.modify).finish hlt) (by simp) rfl rfl
          ⟨rfl, rfl, .inr rfl⟩ rfl rfl rfl
      | some err =>
        cases hrun
        have hleft := h.attempts id ⟨_, hc, rfl⟩ hlive
        refine h.restartLoop_turn hw hc ht.modify rfl rfl hleft ?_
        -- no other restart task is there to rely on the number
        intro i hne hi hi'
        have hrestart : Holds (Code.is .restart) s i := by
          obtain ⟨c, hmem, hretry⟩ := hi
          refine ⟨c, hmem, ?_⟩
          cases c with
          | restart toml pc => rfl
          | _ => cases hretry
        exact absurd (h.restart.unique hrestart hi' hown hlive) hne
  | connect => cases hrun

theorem revalidate_turn {pc : RevalidateAt} (h : SingleFlight s) (hw : s.WellFormed)
    (hc : ⟨id, .revalidate pc⟩ ∈ s.tasks) (hrun : App.revalidate s id file pc = some m) :
    SingleFlight m := by
  have hlt : id < s.next := hw.lt _ hc
  have ht := Actor.Turn.start hw hc
  cases pc with
  | start =>
    cases file with
    | none =>
      cases hrun
      exact h.done hw hc (ht.modify.finish hlt) rfl rfl ⟨rfl, rfl, .inl rfl⟩ rfl rfl fun _ hi => hi
    | some text =>
      cases hrun
      exact h.stay hw hc (ht.call hlt) (fun k => by cases k <;> rfl) sameWork_refl rfl rfl
        fun _ hi => hi
  | validated text v =>
    simp only [App.revalidate] at hrun
    split at hrun
    · cases hrun
      exact h.done hw hc (ht.modify.modify.finish hlt) rfl rfl ⟨rfl, rfl, .inl rfl⟩ rfl rfl
        fun _ hi => hi
    · cases hrun
      exact h.done hw hc (ht.modify.finish hlt) rfl rfl ⟨rfl, rfl, .inl rfl⟩ rfl rfl fun _ hi => hi
  | validate text => cases hrun

theorem refresh_turn {pc : RefreshAt} (h : SingleFlight s) (hw : s.WellFormed)
    (hc : ⟨id, .refresh pc⟩ ∈ s.tasks) (hrun : refreshSupervisorStatus s id pc = some m) :
    SingleFlight m := by
  have hlt : id < s.next := hw.lt _ hc
  have ht := Actor.Turn.start hw hc
  cases pc with
  | start =>
    cases hrun
    exact h.stay hw hc (ht.call hlt) (fun k => by cases k <;> rfl) sameWork_refl rfl rfl
      fun _ hi => hi
  | answered status =>
    cases status with
    | some status =>
      cases hrun
      exact h.done hw hc (ht.modify.finish hlt) rfl rfl ⟨rfl, rfl, .inl rfl⟩ rfl rfl fun _ hi => hi
    | none =>
      cases hrun
      exact h.done hw hc (ht.finish hlt) rfl rfl sameWork_refl rfl rfl fun _ hi => hi
  | status => cases hrun

theorem poll_turn {pc : PollAt} (h : SingleFlight s) (hw : s.WellFormed)
    (hc : ⟨id, .poll pc⟩ ∈ s.tasks) (hrun : App.poll s id now pc = some m) : SingleFlight m := by
  have hlt : id < s.next := hw.lt _ hc
  have ht := Actor.Turn.start hw hc
  cases pc with
  | start | sleep =>
    simp only [App.poll] at hrun
    split at hrun
    · cases hrun
      exact h.done hw hc (ht.finish hlt) rfl rfl sameWork_refl rfl rfl fun _ hi => hi
    · split at hrun
      · cases hrun
        exact h.stay hw hc (ht.call hlt) (fun k => by cases k <;> rfl) sameWork_refl rfl rfl
          fun _ hi => hi
      · cases hrun
        exact h.stay hw hc (ht.suspend hlt) (fun k => by cases k <;> rfl) sameWork_refl rfl rfl
          fun _ hi => hi
  | answered env =>
    simp only [App.poll] at hrun
    split at hrun
    · cases hrun
      have hwork : SameWork s.heap (s.heap.polled env now) := by
        unfold AppModel.polled
        split
        · exact ⟨rfl, rfl, .inl rfl⟩
        · exact ⟨rfl, rfl, .inl rfl⟩
      exact h.stay hw hc (ht.modify.suspend hlt) (fun k => by cases k <;> rfl) hwork
        (polled_restartTask ..) (polled_pollTask ..) fun _ hi => hi
    · cases hrun
      exact h.stay hw hc (ht.suspend hlt) (fun k => by cases k <;> rfl) sameWork_refl rfl rfl
        fun _ hi => hi
  | status => cases hrun

/-! Installing and uninstalling -/

/-- A turn of `installSupervisor()` or `uninstallSupervisor()`, with what it makes of the
flags. -/
theorem errand (h : SingleFlight s) (hw : s.WellFormed) (hmem : ⟨id, c⟩ ∈ s.tasks)
    (ht : s.Turn (some id) d [] m)
    (hd : ∀ k, k ≠ .install → k ≠ .uninstall → d.any (Code.is k) = c.is k)
    (hinstall : Flag (Code.is .install) AppModel.installing m)
    (huninstall : Flag (Code.is .uninstall) AppModel.uninstalling m)
    (hrestart : m.heap.restartTask = s.heap.restartTask)
    (hpoll : m.heap.pollTask = s.heap.pollTask)
    (hf : m.heap.restartFailures = s.heap.restartFailures) (hcan : m.cancelled = s.cancelled) :
    SingleFlight m := by
  have hmono : ∀ i ∈ s.cancelled, i ∈ m.cancelled := fun i hi => hcan ▸ hi
  have hsame (k : Kind) (hk : k ≠ .install) (hk' : k ≠ .uninstall) (i : Nat) :
      Holds (Code.is k) m i ↔ Holds (Code.is k) s i :=
    holds_stay hw hmem ht (by simp) (hd k hk hk')
  constructor
  · exact h.restart.keep (fun i => (hsame _ (by decide) (by decide) i).mp) hmono hrestart
  · exact h.poll.keep (fun i => (hsame _ (by decide) (by decide) i).mp) hmono hpoll
  · exact hinstall
  · exact huninstall
  · refine h.attempts.keep (fun i => (hsame _ (by decide) (by decide) i).mp) hmono ?_
    intro hlt
    rw [hf]
    exact hlt
  · rw [hf]
    exact h.failures

theorem install_turn {pc : InstallAt} (h : SingleFlight s) (hw : s.WellFormed)
    (hc : ⟨id, .install pc⟩ ∈ s.tasks) (hrun : installSupervisor s id pc = some m) :
    SingleFlight m := by
  have hlt : id < s.next := hw.lt _ hc
  have ht := Actor.Turn.start hw hc
  -- a turn that ends the installation
  have hended {d : Option Code} {m : Main} (hpc : pc ≠ .start) (ht : s.Turn (some id) d [] m)
      (hd : ∀ k, d.any (Code.is k) = false) (hup : m.heap.installing = false)
      (hr : m.heap.restartTask = s.heap.restartTask) (hp : m.heap.pollTask = s.heap.pollTask)
      (hu : m.heap.uninstalling = s.heap.uninstalling)
      (hf : m.heap.restartFailures = s.heap.restartFailures) (hcan : m.cancelled = s.cancelled) :
      SingleFlight m := by
    have hown : Holds (Code.is .install) s id := ⟨_, hc, decide_eq_true hpc⟩
    refine h.errand hw hc ht (fun k hk hk' => ?_) ?_ ?_ hr hp hf hcan
    · rw [hd k]
      cases k with
      | install => exact absurd rfl hk
      | restart | retry | poll | uninstall => rfl
    · exact h.install.lower hown (fun i => holds_end ht (hd _)) hup
    · exact h.uninstall.keep (fun i => holds_stay hw hc ht (by simp) (hd _)) hu
  cases pc with
  | start =>
    simp only [installSupervisor] at hrun
    split at hrun
    · cases hrun
      exact h.done hw hc (ht.finish hlt) rfl rfl sameWork_refl rfl rfl fun _ hi => hi
    · next hdown =>
      cases hrun
      have ht' := (ht.modify (f := fun m => { m with installing := true, statusMessage := none })).call
        hlt (k := .install .install)
      refine h.errand hw hc ht' (fun k hk hk' => ?_) ?_ ?_ rfl rfl rfl rfl
      · cases k with
        | install => exact absurd rfl hk
        | restart | retry | poll | uninstall => rfl
      · exact h.install.raise (by simpa using hdown) (fun i => holds_begin ht' rfl) rfl
      · exact h.uninstall.keep (fun i => holds_stay hw hc ht' (by simp) rfl) rfl
  | installed err =>
    cases err with
    | some err =>
      cases hrun
      exact hended (by simp) (ht.modify.modify.finish hlt) (fun k => rfl) rfl rfl rfl rfl rfl rfl
    | none =>
      cases hrun
      exact hended (by simp) (ht.modify.call hlt) (fun k => by cases k <;> rfl) rfl rfl rfl rfl rfl rfl
  | install => cases hrun

theorem uninstall_turn {pc : InstallAt} (h : SingleFlight s) (hw : s.WellFormed)
    (hc : ⟨id, .uninstall pc⟩ ∈ s.tasks) (hrun : uninstallSupervisor s id pc = some m) :
    SingleFlight m := by
  have hlt : id < s.next := hw.lt _ hc
  have ht := Actor.Turn.start hw hc
  -- a turn that ends the uninstallation
  have hended {d : Option Code} {m : Main} (hpc : pc ≠ .start) (ht : s.Turn (some id) d [] m)
      (hd : ∀ k, d.any (Code.is k) = false) (hup : m.heap.uninstalling = false)
      (hr : m.heap.restartTask = s.heap.restartTask) (hp : m.heap.pollTask = s.heap.pollTask)
      (hi : m.heap.installing = s.heap.installing)
      (hf : m.heap.restartFailures = s.heap.restartFailures) (hcan : m.cancelled = s.cancelled) :
      SingleFlight m := by
    have hown : Holds (Code.is .uninstall) s id := ⟨_, hc, decide_eq_true hpc⟩
    refine h.errand hw hc ht (fun k hk hk' => ?_) ?_ ?_ hr hp hf hcan
    · rw [hd k]
      cases k with
      | uninstall => exact absurd rfl hk'
      | restart | retry | poll | install => rfl
    · exact h.install.keep (fun i => holds_stay hw hc ht (by simp) (hd _)) hi
    · exact h.uninstall.lower hown (fun i => holds_end ht (hd _)) hup
  cases pc with
  | start =>
    simp only [uninstallSupervisor] at hrun
    split at hrun
    · cases hrun
      exact h.done hw hc (ht.finish hlt) rfl rfl sameWork_refl rfl rfl fun _ hi => hi
    · next hdown =>
      cases hrun
      have ht' := (ht.modify (f := fun m => { m with uninstalling := true })).call hlt
        (k := .uninstall .install)
      refine h.errand hw hc ht' (fun k hk hk' => ?_) ?_ ?_ rfl rfl rfl rfl
      · cases k with
        | uninstall => exact absurd rfl hk'
        | restart | retry | poll | install => rfl
      · exact h.install.keep (fun i => holds_stay hw hc ht' (by simp) rfl) rfl
      · exact h.uninstall.raise (by simpa using hdown) (fun i => holds_begin ht' rfl) rfl
  | installed err =>
    cases err with
    | some err =>
      cases hrun
      exact hended (by simp) (ht.modify.modify.finish hlt) (fun k => rfl) rfl rfl rfl rfl rfl rfl
    | none =>
      cases hrun
      exact hended (by simp) (ht.modify.call hlt) (fun k => by cases k <;> rfl) rfl rfl rfl rfl rfl rfl
  | install => cases hrun

theorem turn_single {c : Code} (h : SingleFlight s) (hw : s.WellFormed)
    (hc : s.code? id = some c) (hrun : turn s id file now c = some m) : SingleFlight m := by
  have hmem := Actor.mem_of_code? hc
  cases c with
  | connect pc => exact h.connect_turn hw hmem hrun
  | disconnect pc => exact h.disconnect_turn hw hmem hrun
  | revalidate pc => exact h.revalidate_turn hw hmem hrun
  | refresh pc => exact h.refresh_turn hw hmem hrun
  | install pc => exact h.install_turn hw hmem hrun
  | uninstall pc => exact h.uninstall_turn hw hmem hrun
  | restart toml pc => exact h.restart_turn hw hmem hrun
  | poll pc => exact h.poll_turn hw hmem hrun

/-! ## The events -/

/-- The core of the connection that is shown has exited, and is restarted. -/
theorem restarts {toml : String} (h : SingleFlight s) (hw : s.WellFormed)
    (ht : s.Turn none none [.restart toml .start] m) (hwork : SameWork s.heap m.heap)
    (hrestart : m.heap.restartTask = some s.next)
    (hcan : m.cancelled = s.heap.restartTask.toList ++ (s.heap.pollTask.toList ++ s.cancelled)) :
    SingleFlight m := by
  have hmono : ∀ i ∈ s.cancelled, i ∈ m.cancelled := by
    intro i hi
    rw [hcan]
    exact List.mem_append_right _ (List.mem_append_right _ hi)
  have hsame (k : Kind) (hk : k ≠ .restart) (i : Nat) :
      Holds (Code.is k) m i ↔ Holds (Code.is k) s i := by
    refine holds_user ht fun c hc => ?_
    rw [List.mem_singleton.mp hc]
    cases k with
    | restart => exact absurd rfl hk
    | retry | poll | install | uninstall => rfl
  constructor
  · refine h.restart.renew (fun i hi => ?_) hmono fun i hi => ?_
    · rw [hrestart]
      rcases holds_created hw (c := .restart toml .start) (by simp) ht (by simp) (by simp) hi with
        hold | he
      · exact .inl hold
      · exact .inr (by rw [he])
    · rw [hcan, hi]
      exact List.mem_cons_self
  · refine h.poll.renew (fun i hi => .inl ((hsame _ (by decide) i).mp hi)) hmono fun i hi => ?_
    rw [hcan, hi]
    simp
  · exact h.install.keep (hsame _ (by decide)) hwork.install
  · exact h.uninstall.keep (hsame _ (by decide)) hwork.uninstall
  · exact h.attempts.keep (fun i => (hsame _ (by decide) i).mp) hmono hwork.attempts
  · exact hwork.bound h.failures

theorem handle_turn {ev : BridgeEvent} (h : SingleFlight s) (hw : s.WellFormed) :
    SingleFlight (handle s ev) := by
  have ht : s.Turn none none [] s := .user
  have hrefresh : ∀ c ∈ [Code.refresh .start], ∀ k, c.is k = false := by
    intro c hc k
    rw [List.mem_singleton.mp hc]
    cases k <;> rfl
  have hpoll : ∀ i, s.heap.pollTask = some i → s.heap.pollTask = some i ∨ i ∈ s.cancelled :=
    fun i hi => .inl hi
  cases ev with
  | connected version core port =>
    simp only [handle, startupRestoreIfNeeded]
    split
    · exact h.user ht.spawn hrefresh sameWork_refl rfl hpoll fun _ hi => hi
    · split
      · refine h.user ht.spawn.modify.spawn ?_ ⟨rfl, rfl, .inl rfl⟩ rfl hpoll fun _ hi => hi
        intro c hc k
        rcases List.mem_append.mp hc with hc | hc
        · exact hrefresh c hc k
        · rw [List.mem_singleton.mp hc]
          cases k <;> rfl
      · exact h.user ht.spawn.modify hrefresh ⟨rfl, rfl, .inl rfl⟩ rfl hpoll fun _ hi => hi
  | disconnected => exact h.user ht.spawn hrefresh sameWork_refl rfl hpoll fun _ hi => hi
  | coreExited code signal =>
    show SingleFlight (handleCoreExit s)
    unfold handleCoreExit
    split
    · dsimp only
      split
      · exact h.restarts hw (stopPolling_turn ht).modify.modify.cancel.modify.spawn
          ⟨rfl, rfl, .inl rfl⟩ rfl rfl
      · refine h.user (stopPolling_turn ht).modify.modify (by simp) ⟨rfl, rfl, .inl rfl⟩ rfl ?_ ?_
        · intro i hi
          right
          show i ∈ s.heap.pollTask.toList ++ s.cancelled
          rw [hi]
          exact List.mem_cons_self
        · exact fun _ hi => List.mem_append_right _ hi
    · exact h
  | kicked =>
    show SingleFlight (handleKicked s)
    refine h.user (stopPolling_turn ht.cancel).modify (by simp) ⟨rfl, rfl, .inl rfl⟩ rfl ?_ ?_
    · intro i hi
      right
      show i ∈ s.heap.pollTask.toList ++ (s.heap.restartTask.toList ++ s.cancelled)
      rw [hi]
      exact List.mem_cons_self
    · exact fun _ hi => List.mem_append_right _ (List.mem_append_right _ hi)
  | error code message =>
    simp only [handle]
    exact h.user ht.modify (by simp) ⟨rfl, rfl, .inl rfl⟩ rfl hpoll fun _ hi => hi
  | coreStarted pid port | coreStopped reason | busy owner | unknown type | malformed json => exact h

end SingleFlight

end EasyTierMac.App
