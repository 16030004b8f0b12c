import EasyTierMac.Tenure.Machine

/-!
# Who has the slot

`Owned`: the slot names a member that is under its lease and was not told to go,
and every such member is named by the slot. It holds in every run, and so does
`Accounted`: a member that had the slot and is not under its lease any more was told
to go or has released it. Two
properties need more: that nobody is past the flag while another member has the
slot (`Undisturbed`) needs that no lease is granted during a teardown, and that
a member about to drive the resource has the slot (`Driven`) needs that nobody
is displaced in that moment and no displaced member goes on to drive.
-/

namespace EasyTierMac.Tenure

open Function (update update_apply)

def Stage.isAsking : Stage → Bool
  | .asking _ => true
  | _ => false

def Stage.isNew : Stage → Bool
  | .entering | .asking _ => true
  | _ => false

/-- Admitted under a number that is still in use. -/
def Member.numbered (m : Member) : Prop := m.stage.isAsking = true ∨ m.granted = true

/-- The slot and the members under a lease fit together. -/
structure Owned {ι : Type*} (v : State ι) : Prop where
  owner : ∀ o, v.owner = some o → (v.member o.member).stage.holds ∧
    (v.member o.member).kicked = false ∧ (v.member o.member).id = o.id
  holder : ∀ i, (v.member i).stage.holds → (v.member i).kicked = false →
    v.owner = some ⟨(v.member i).id, i⟩
  granted : ∀ i, (v.member i).stage.holds → (v.member i).granted = true
  fresh : ∀ i, (v.member i).granted = false → (v.member i).kicked = false
  isNew : ∀ i, (v.member i).stage.isNew = true → (v.member i).granted = false
  /-- Numbers in use are below the counter, and no two members share one. -/
  bound : ∀ i, (v.member i).numbered → (v.member i).id < v.nextId
  unique : ∀ i j, (v.member i).numbered → (v.member j).numbered →
    (v.member i).id = (v.member j).id → i = j

theorem Owned.init {ι : Type*} : Owned ({} : State ι) where
  owner _ h := by cases h
  holder _ h := h.elim
  granted _ h := h.elim
  fresh _ _ := rfl
  isNew _ h := by cases h
  bound _ h := by rcases h with h | h <;> cases h
  unique _ _ h := by rcases h with h | h <;> cases h

namespace Owned

section

variable {ι : Type*} {v : State ι}

/-- Two members under a lease that were not told to go are the same. -/
theorem holder_unique (hO : Owned v) {i j : ι} (hi : (v.member i).stage.holds)
    (hik : (v.member i).kicked = false) (hj : (v.member j).stage.holds)
    (hjk : (v.member j).kicked = false) : i = j := by
  have hoi := hO.holder i hi hik
  rw [hO.holder j hj hjk] at hoi
  injection hoi with hoi
  injection hoi with _ hji
  exact hji.symm

/-- The slot carries the number of a member under its lease: it is this member's. -/
theorem owner_of_id (hO : Owned v) {i : ι} {o : Slot ι} (hi : (v.member i).stage.holds)
    (howner : v.owner = some o) (hid : o.id = (v.member i).id) : o.member = i := by
  obtain ⟨hst, -, hoid⟩ := hO.owner o howner
  exact hO.unique _ _ (.inr (hO.granted _ hst)) (.inr (hO.granted _ hi)) (hoid.trans hid)

end

variable {ι : Type*} [DecidableEq ι] {v v' : State ι} {b : Act ι}

theorem step_owner (hO : Owned v) (h : Step v b v') : ∀ o, v'.owner = some o →
    (v'.member o.member).stage.holds ∧ (v'.member o.member).kicked = false ∧
      (v'.member o.member).id = o.id := by
  have howner := hO.owner
  have hfresh := hO.fresh
  have hnew := hO.isNew
  cases h with
  | @releaseOther i hi hid =>
    -- the slot is somebody else's, so it is not the member that moves
    intro o ho
    obtain ⟨hst, hk, hoid⟩ := howner o ho
    have hne : o.member ≠ i := by
      rintro rfl
      exact hid o ho hoid.symm
    simp only [State.setStage, State.modify, update_apply, if_neg hne]
    exact ⟨hst, hk, hoid⟩
  | _ =>
    simp only [State.setStage, State.modify, State.grant, update_apply]
    grind [Stage.holds, Stage.isNew]

theorem step_holder (hO : Owned v) (h : Step v b v') : ∀ i, (v'.member i).stage.holds →
    (v'.member i).kicked = false → v'.owner = some ⟨(v'.member i).id, i⟩ := by
  have howner := hO.owner
  have hholder := hO.holder
  have hgr := hO.granted
  cases h with
  | @release i o hi ho hid =>
    -- releasing the slot of another number is impossible
    intro j hj hjk
    have him : (v.member i).stage.holds := by rw [hi]; trivial
    have hoi := hO.owner_of_id him ho hid
    by_cases hji : j = i
    · subst hji
      simp only [State.setStage, State.modify, Function.update_self] at hj
      exact hj.elim
    · simp only [State.setStage, State.modify, update_apply, if_neg hji] at hj hjk
      have hik := (howner o ho).2.1
      rw [hoi] at hik
      exact absurd (hO.holder_unique hj hjk him hik) hji
  | _ =>
    simp only [State.setStage, State.modify, State.grant, update_apply]
    grind [Stage.holds]

theorem step_granted (hO : Owned v) (h : Step v b v') :
    ∀ i, (v'.member i).stage.holds → (v'.member i).granted = true := by
  have hgr := hO.granted
  cases h <;> simp only [State.setStage, State.modify, State.grant, update_apply] <;>
    grind [Stage.holds]

theorem step_fresh (hO : Owned v) (h : Step v b v') :
    ∀ i, (v'.member i).granted = false → (v'.member i).kicked = false := by
  have howner := hO.owner
  have hgr := hO.granted
  have hfresh := hO.fresh
  cases h <;> simp only [State.setStage, State.modify, State.grant, update_apply] <;> grind

theorem step_isNew (hO : Owned v) (h : Step v b v') :
    ∀ i, (v'.member i).stage.isNew = true → (v'.member i).granted = false := by
  have hnew := hO.isNew
  cases h <;> simp only [State.setStage, State.modify, State.grant, update_apply] <;>
    grind [Stage.isNew]

theorem step_bound (hO : Owned v) (h : Step v b v') :
    ∀ i, (v'.member i).numbered → (v'.member i).id < v'.nextId := by
  have hgr := hO.granted
  have hb := hO.bound
  cases h <;>
    simp only [State.setStage, State.modify, State.grant, update_apply, Member.numbered] at hb ⊢ <;>
    grind [Stage.holds, Stage.isAsking]

theorem step_unique (hO : Owned v) (h : Step v b v') : ∀ i j, (v'.member i).numbered →
    (v'.member j).numbered → (v'.member i).id = (v'.member j).id → i = j := by
  have hgr := hO.granted
  have hb := hO.bound
  have hu := hO.unique
  cases h <;>
    simp only [State.setStage, State.modify, State.grant, update_apply, Member.numbered]
      at hb hu ⊢ <;>
    grind [Stage.holds, Stage.isAsking]

theorem step (hO : Owned v) (h : Step v b v') : Owned v' where
  owner := hO.step_owner h
  holder := hO.step_holder h
  granted := hO.step_granted h
  fresh := hO.step_fresh h
  isNew := hO.step_isNew h
  bound := hO.step_bound h
  unique := hO.step_unique h

theorem of_reachable (h : (machine ι).Reachable v) : Owned v :=
  h.invariant .init fun _ hO _ hs => hO.step hs

end Owned

variable {ι : Type*} [DecidableEq ι] {v v' : State ι} {b : Act ι}

/-! ## Whoever had the slot -/

/-- A member that was granted the slot is under its lease, was told to go, or is past
the release; and nobody else is. -/
structure Accounted {ι : Type*} (v : State ι) : Prop where
  granted : ∀ i, (v.member i).granted = true →
    (v.member i).stage.holds ∨ (v.member i).kicked = true ∨ (v.member i).stage = .torn
  torn : ∀ i, (v.member i).stage = .torn → (v.member i).granted = true

theorem Accounted.step (hA : Accounted v) (hO : Owned v) (h : Step v b v') : Accounted v' := by
  have hnew := hO.isNew
  have hgr := hO.granted
  obtain ⟨hacc, htorn⟩ := hA
  constructor
  · cases h <;> simp only [State.setStage, State.modify, State.grant, update_apply] <;>
      grind [Stage.holds, Stage.isNew]
  · cases h <;> simp only [State.setStage, State.modify, State.grant, update_apply] <;>
      grind [Stage.holds]

theorem Accounted.of_reachable (h : (machine ι).Reachable v) : Accounted v :=
  h.invariant ⟨fun _ h => (nomatch h), fun _ h => (nomatch h)⟩
    fun hr hA _ hs => hA.step (.of_reachable hr) hs

/-! ## Nobody tears down under another's lease -/

/-- No lease is granted while a member is past the flag or the watchdog has expired. -/
def GrantsQuietly (v : State ι) (b : Act ι) : Prop :=
  (∃ i, b = .accept i ∨ ∃ j, b = .takeover i j) →
    v.expired = false ∧ ∀ i, ¬ (v.member i).stage.tearing

/-- Whoever is past the flag, or the watchdog, finds the slot free or its own, and
was not told to go. -/
structure Undisturbed {ι : Type*} (v : State ι) : Prop where
  tearing : ∀ i o, (v.member i).stage.tearing → v.owner = some o → o.member = i
  unkicked : ∀ i, (v.member i).stage.tearing → (v.member i).kicked = false
  expired : v.expired = true → v.owner = none

/-- A grant, and telling the displaced member, put nobody past the flag. -/
theorem tearing_of_grant {i j k : ι} {f : Member → Member} (hf : ∀ m, (f m).stage = m.stage)
    (h : (((v.modify k f).grant i).member j).stage.tearing) : (v.member j).stage.tearing := by
  by_cases hji : j = i
  · subst hji
    simp only [State.grant, State.modify, Function.update_self] at h
    exact h.elim
  · simp only [State.grant, State.modify, update_apply, if_neg hji] at h
    split at h
    · next hjk =>
      rw [hf] at h
      exact hjk ▸ h
    · exact h

omit [DecidableEq ι] in
theorem Undisturbed.init : Undisturbed ({} : State ι) where
  tearing _ _ h := h.elim
  unkicked _ h := h.elim
  expired h := by cases h

theorem Undisturbed.step (hU : Undisturbed v) (hO : Owned v) (hq : GrantsQuietly v b)
    (h : Step v b v') : Undisturbed v' := by
  obtain ⟨htear, hunk, hexp⟩ := hU
  cases h with
  | @accept i t hi ho =>
    obtain ⟨he, hnt⟩ := hq ⟨i, .inl rfl⟩
    have hnt' : ∀ j, ¬ ((v.grant i).member j).stage.tearing := by
      intro j hj
      refine hnt j (tearing_of_grant (i := i) (k := i) (f := id) (fun _ => rfl) ?_)
      rwa [show v.modify i id = v by simp [State.modify]]
    refine ⟨fun j _ hj => absurd hj (hnt' j), fun j hj => absurd hj (hnt' j), fun h => ?_⟩
    rw [show v.expired = true from h] at he
    cases he
  | @takeover i t o hi ho =>
    obtain ⟨he, hnt⟩ := hq ⟨i, .inr ⟨o.member, rfl⟩⟩
    have hnt' : ∀ j, ¬ (((v.modify o.member fun m => { m with kicked := true }).grant i).member
        j).stage.tearing :=
      fun j hj => hnt j (tearing_of_grant (f := fun m => { m with kicked := true }) (fun _ => rfl) hj)
    refine ⟨fun j _ hj => absurd hj (hnt' j), fun j hj => absurd hj (hnt' j), fun h => ?_⟩
    rw [show v.expired = true from h] at he
    cases he
  | @leave i hi hk =>
    -- the flag is clear, so the slot is its own
    have hown := hO.holder i (by rw [hi]; trivial) hk
    refine ⟨fun j o hj ho => ?_, fun j hj => ?_, hexp⟩
    · by_cases hji : j = i
      · have ho : v.owner = some o := ho
        rw [hown] at ho
        injection ho with ho
        rw [← ho, hji]
      · simp only [State.setStage, State.modify, update_apply, if_neg hji] at hj
        exact htear j o hj ho
    · by_cases hji : j = i
      · subst hji
        simp only [State.setStage, State.modify, Function.update_self]
        exact hk
      · simp only [State.setStage, State.modify, update_apply, if_neg hji] at hj ⊢
        exact hunk j hj
  | _ =>
    constructor <;> simp only [State.setStage, State.modify, update_apply] <;>
      grind [Stage.tearing]

theorem Undisturbed.of_reachable (h : (machine ι).ReachableBy GrantsQuietly v) : Undisturbed v :=
  h.invariant .init fun hr hU hq hs => hU.step (.of_reachable hr.reachable) hq hs

/-! ## Only the holder drives -/

/-- No member is displaced while it is about to drive, and no displaced member goes
on to drive. -/
structure DrivesOwn (v : State ι) (b : Act ι) : Prop where
  takeover : ∀ i j, b = .takeover i j → (v.member j).stage ≠ .driving
  drive : ∀ i, b = .drive i → (v.member i).kicked = false

/-- A member that is about to drive was not displaced. -/
def Driven (v : State ι) : Prop := ∀ i, (v.member i).stage = .driving → (v.member i).kicked = false

theorem Driven.step (hD : Driven v) (hd : DrivesOwn v b) (h : Step v b v') : Driven v' := by
  have htake := hd.takeover
  have hdrive := hd.drive
  unfold Driven at hD ⊢
  cases h with
  | @takeover i t o hi ho =>
    have hnd := htake i o.member rfl
    intro j hj
    by_cases hji : j = i
    · subst hji
      simp only [State.grant, State.modify, Function.update_self] at hj
      cases hj
    · by_cases hjo : j = o.member
      · subst hjo
        simp only [State.grant, State.modify, update_apply, if_neg hji] at hj
        exact absurd hj hnd
      · simp only [State.grant, State.modify, update_apply, if_neg hji, if_neg hjo] at hj ⊢
        exact hD j hj
  | _ =>
    simp only [State.setStage, State.modify, State.grant, update_apply]
    grind

theorem Driven.of_reachable (h : (machine ι).ReachableBy DrivesOwn v) : Driven v :=
  h.invariant (fun _ h => by cases h) fun _ hD hd hs => hD.step hd hs

omit [DecidableEq ι] in
/-- Whoever is about to drive has the slot. -/
theorem Driven.owner (hD : Driven v) (hO : Owned v) {i : ι} (hi : (v.member i).stage = .driving) :
    v.owner = some ⟨(v.member i).id, i⟩ :=
  hO.holder i (by rw [hi]; trivial) (hD i hi)

end EasyTierMac.Tenure
