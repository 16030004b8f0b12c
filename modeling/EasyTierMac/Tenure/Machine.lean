import EasyTierMac.Transition
import Mathlib.Logic.Function.Basic

/-!
# An exclusive lease that can be taken over

Members ask for one slot. A free slot is granted to whoever asks; a taken slot is
refused, or taken over, and then the displaced member is told by a flag that it
reads only once, when its work has ended. What a member does with the lease is
cut down to its `Stage`: it holds it, it has committed itself to drive the
guarded resource, its work has ended, it is about to release, it tears down.

The slot carries the number its holder was admitted under, and a release
compares numbers, not members. Nothing here is about sockets or cores; `ι` is
any type of members.
-/

namespace EasyTierMac.Tenure

open Function (update)

/-- What a member does with the lease. -/
inductive Stage
  /-- Not there yet, turned away, or gone. -/
  | outside
  /-- At the door. -/
  | entering
  /-- Admitted; about to ask for the slot. -/
  | asking (takeover : Bool)
  | holding
  /-- Committed to drive the resource. -/
  | driving
  /-- Its work has ended; about to read the flag. -/
  | ended
  /-- Found the flag clear; about to release the slot. -/
  | leaving
  /-- Past the release. -/
  | torn
  deriving DecidableEq, Repr

/-- Still under the lease it was granted. -/
def Stage.holds : Stage → Prop
  | .holding | .driving | .ended | .leaving => True
  | _ => False

/-- Past the flag. -/
def Stage.tearing : Stage → Prop
  | .leaving | .torn => True
  | _ => False

structure Member where
  stage : Stage := .outside
  id : Nat := 0
  /-- The flag: somebody took the slot over. -/
  kicked : Bool := false
  /-- The member was granted the slot. -/
  granted : Bool := false

/-- The slot when it is taken. -/
structure Slot (ι : Type*) where
  id : Nat
  member : ι

structure State (ι : Type*) where
  owner : Option (Slot ι) := none
  nextId : Nat := 1
  member : ι → Member := fun _ => {}
  /-- A watchdog found the slot free and will end everything. -/
  expired : Bool := false

variable {ι : Type*} [DecidableEq ι]

/-- Change member `i`. -/
def State.modify (v : State ι) (i : ι) (f : Member → Member) : State ι :=
  { v with member := update v.member i (f (v.member i)) }

/-- Move member `i`. -/
def State.setStage (v : State ι) (i : ι) (st : Stage) : State ι :=
  v.modify i fun m => { m with stage := st }

/-- Moving a member to where it is changes nothing. -/
theorem State.setStage_eq_self {v : State ι} {i : ι} {st : Stage} (h : (v.member i).stage = st) :
    v.setStage i st = v := by
  have hm : ({ v.member i with stage := st } : Member) = v.member i := by rw [← h]
  unfold State.setStage State.modify
  dsimp only
  rw [hm, Function.update_eq_self]

/-- Member `i` gets the slot. -/
def State.grant (v : State ι) (i : ι) : State ι :=
  { v with owner := some ⟨(v.member i).id, i⟩ }.modify i fun m =>
    { m with stage := .holding, granted := true }

inductive Act (ι : Type*)
  | enter (i : ι)
  | reject (i : ι)
  | enlist (i : ι) (takeover : Bool)
  | refuse (i : ι)
  | accept (i : ι)
  | takeover (i j : ι)
  | drive (i : ι)
  | drove (i : ι)
  | finish (i : ι)
  | displaced (i : ι)
  | leave (i : ι)
  | release (i : ι)
  | releaseOther (i : ι)
  | expire
  | watch

inductive Step (v : State ι) : Act ι → State ι → Prop
  | enter {i : ι} (hi : (v.member i).stage = .outside) :
      Step v (.enter i) (v.modify i fun _ => { stage := .entering })
  | reject {i : ι} (hi : (v.member i).stage = .entering) :
      Step v (.reject i) (v.setStage i .outside)
  | enlist {i : ι} {t : Bool} (hi : (v.member i).stage = .entering) :
      Step v (.enlist i t) ({ v with nextId := v.nextId + 1 }.modify i fun m =>
        { m with stage := .asking t, id := v.nextId })
  | refuse {i : ι} {t : Bool} (hi : (v.member i).stage = .asking t) :
      Step v (.refuse i) (v.setStage i .outside)
  | accept {i : ι} {t : Bool} (hi : (v.member i).stage = .asking t) (howner : v.owner = none) :
      Step v (.accept i) (v.grant i)
  | takeover {i : ι} {t : Bool} {o : Slot ι} (hi : (v.member i).stage = .asking t)
      (howner : v.owner = some o) :
      Step v (.takeover i o.member)
        ((v.modify o.member fun m => { m with kicked := true }).grant i)
  | drive {i : ι} (hi : (v.member i).stage = .holding) : Step v (.drive i) (v.setStage i .driving)
  | drove {i : ι} (hi : (v.member i).stage = .driving) : Step v (.drove i) (v.setStage i .holding)
  | finish {i : ι} (hi : (v.member i).stage = .holding) : Step v (.finish i) (v.setStage i .ended)
  | displaced {i : ι} (hi : (v.member i).stage = .ended) (hk : (v.member i).kicked = true) :
      Step v (.displaced i) (v.setStage i .outside)
  | leave {i : ι} (hi : (v.member i).stage = .ended) (hk : (v.member i).kicked = false) :
      Step v (.leave i) (v.setStage i .leaving)
  | release {i : ι} {o : Slot ι} (hi : (v.member i).stage = .leaving) (howner : v.owner = some o)
      (hid : o.id = (v.member i).id) :
      Step v (.release i) ({ v with owner := none }.setStage i .torn)
  | releaseOther {i : ι} (hi : (v.member i).stage = .leaving)
      (hid : ∀ o, v.owner = some o → o.id ≠ (v.member i).id) :
      Step v (.releaseOther i) (v.setStage i .torn)
  | expire (howner : v.owner = none) : Step v .expire { v with expired := true }
  | watch : Step v .watch { v with expired := false }

/-- The lease. -/
def machine (ι : Type*) [DecidableEq ι] : Transition.System (State ι) (Act ι) := ⟨{}, Step⟩

end EasyTierMac.Tenure
