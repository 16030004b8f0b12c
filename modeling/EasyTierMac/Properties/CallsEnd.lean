import EasyTierMac.Interference
import EasyTierMac.Properties.Serialised

/-!
# How much a call does

The calls of a handle share its state, and none of them waits for another one. `calls_end` says
that each of them ends: in every interleaving with other calls and events, it performs no more
operations than `HandleFn.cost` says, and as long as it has not returned it can take a step.

The bound is given for each kind of operation. A connect asks for the core once and tries the
RPC thirty times; a disconnect deletes one instance and stops the core once; the calls that read
start and stop nothing.
-/

namespace EasyTierMac.Bridge

open Program (AtMost)
open Service (Tally)
open Transition (System)

variable {lib : Easytier} {api : PeerManage} {α : Type}

/-- A kind of operations. -/
inductive OpKind
  | all
  | start
  | stop
  | run
  | delete
  deriving DecidableEq, Repr

def OpKind.has : OpKind → HandleOp lib api → Bool
  | .all, _ => true
  | .start, .host .start => true
  | .stop, .host .stop => true
  | .run, .host (.run ..) => true
  | .delete, .host (.delete ..) => true
  | _, _ => false

/-- How many operations of a kind a call performs at most. -/
def HandleFn.cost : HandleFn → OpKind → Nat
  | .connect _, .all => 2 * MAX_ATTEMPTS + 3
  | .connect _, .start => 1
  | .connect _, .run => MAX_ATTEMPTS
  | .disconnect, .all => 6
  | .disconnect, .stop | .disconnect, .delete => 1
  | .status, .all => 7
  | .supervisorStatus, .all => 3
  | _, _ => 0

/-! ## Costs of the code -/

theorem atMost_onHandle {F : HandleOp lib api → Bool} {c : Call lib α} {n : Nat}
    (h : AtMost (fun o => F (.host o)) c n) : AtMost F (onHandle c) n := by
  induction c generalizing n with
  | ret a => trivial
  | op o k ih =>
    obtain ⟨hn, hk⟩ := h
    exact ⟨hn, fun r => ih r (hk r)⟩

/-- What an operation of the kind `k` costs, where `K` is counted. -/
def OpKind.weight (K k : OpKind) : Nat := if K = .all ∨ K = k then 1 else 0

/-- The operations of a handle that `K` counts. -/
def OpKind.onHost (lib : Easytier) (api : PeerManage) (K : OpKind) (o : Op lib) : Bool :=
  K.has (.host o : HandleOp lib api)

variable {K : OpKind}

theorem weight_port : (K.onHost lib api .port).toNat ≤ K.weight .all := by
  cases K <;> exact Nat.le_refl _

theorem weight_setPort (port : Option UInt16) :
    (K.onHost lib api (.setPort port)).toNat ≤ K.weight .all := by
  cases K <;> exact Nat.le_refl _

theorem weight_run (port : UInt16) (id : Uuid) (config : lib.NetworkConfig) :
    (K.onHost lib api (.run port id config)).toNat ≤ K.weight .run := by
  cases K <;> exact Nat.le_refl _

theorem weight_delete (port : UInt16) (id : Uuid) :
    (K.onHost lib api (.delete port id)).toNat ≤ K.weight .delete := by
  cases K <;> exact Nat.le_refl _

theorem tryRunNetworkInstance_atMost (id : Uuid) (config : lib.NetworkConfig) :
    AtMost (K.onHost lib api) (tryRunNetworkInstance id config)
      (K.weight .all + (K.weight .run + 0)) := by
  refine AtMost.op weight_port fun port => ?_
  cases port with
  | none => trivial
  | some port =>
    refine AtMost.op (weight_run port id config) fun r => ?_
    cases r <;> trivial

theorem attempts_atMost (id : Uuid) (config : lib.NetworkConfig) (left : Nat) (lastErr : String) :
    AtMost (K.onHost lib api) (runAttempts id config left lastErr)
      (left * (K.weight .all + (K.weight .run + 0))) := by
  induction left generalizing lastErr with
  | zero => trivial
  | succ left ih =>
    have hbind : AtMost (K.onHost lib api) (runAttempts id config (left + 1) lastErr)
        (K.weight .all + (K.weight .run + 0) + left * (K.weight .all + (K.weight .run + 0))) := by
      refine (tryRunNetworkInstance_atMost id config).bind fun r => ?_
      cases r with
      | error e => exact ih e
      | ok u => trivial
    refine hbind.mono ?_
    rw [Nat.succ_mul, Nat.add_comm]

theorem runNetworkInstance_atMost (toml : Rust.Text) :
    AtMost (K.onHost lib api) (runNetworkInstance lib toml)
      (MAX_ATTEMPTS * (K.weight .all + (K.weight .run + 0))) := by
  unfold runNetworkInstance
  split
  · trivial
  · exact attempts_atMost _ _ _ _

theorem connectNetwork_atMost (toml : Rust.Text) :
    AtMost (K.onHost lib api) (connectNetwork lib toml) (K.weight .start + (K.weight .all +
      (MAX_ATTEMPTS * (K.weight .all + (K.weight .run + 0)) + (K.weight .all + 0)))) := by
  refine AtMost.op ?_ fun r => ?_
  · cases K <;> exact Nat.le_refl _
  cases r with
  | error e => trivial
  | ok info =>
    refine AtMost.op (weight_setPort _) fun _ => ?_
    refine (runNetworkInstance_atMost toml).bind fun r => ?_
    cases r with
    | error e => trivial
    | ok id =>
      refine AtMost.op ?_ fun _ => trivial
      cases K <;> exact Nat.le_refl _

theorem deleteRecorded_atMost (id : Option Uuid) :
    AtMost (K.onHost lib api) (deleteRecorded id)
      (K.weight .all + (K.weight .all + (K.weight .delete + 0) + 0)) := by
  cases id with
  | none => trivial
  | some id =>
    refine AtMost.op weight_port fun port => ?_
    cases port with
    | none => trivial
    | some port =>
      refine AtMost.bind (p := deleteNetworkInstance id) ?_ fun _ => trivial
      refine AtMost.op weight_port fun port => ?_
      cases port with
      | none => trivial
      | some port =>
        refine AtMost.op (weight_delete port id) fun r => ?_
        cases r <;> trivial

theorem disconnectNetwork_atMost :
    AtMost (K.onHost lib api) (disconnectNetwork lib) (K.weight .all +
      (K.weight .all + (K.weight .all + (K.weight .delete + 0) + 0) +
        (K.weight .stop + (K.weight .all + 0)))) := by
  refine AtMost.op ?_ fun id => ?_
  · cases K <;> exact Nat.le_refl _
  refine (deleteRecorded_atMost id).bind fun _ => ?_
  refine AtMost.op ?_ fun _ => AtMost.op (weight_setPort _) fun _ => trivial
  cases K <;> exact Nat.le_refl _

theorem networkStatus_atMost (id : Uuid) :
    AtMost K.has (networkStatus lib api id) (K.weight .all + (K.weight .all +
      (K.weight .all + (K.weight .all + (K.weight .all + 0))))) := by
  refine AtMost.op weight_port fun port => ?_
  cases port with
  | none => trivial
  | some port =>
    refine AtMost.op ?_ fun r => ?_
    · cases K <;> exact Nat.le_refl _
    cases r with
    | error e => trivial
    | ok u =>
      refine AtMost.op ?_ fun r => ?_
      · cases K <;> exact Nat.le_refl _
      cases r with
      | error e => trivial
      | ok peers =>
        refine AtMost.op ?_ fun r => ?_
        · cases K <;> exact Nat.le_refl _
        cases r with
        | error e => trivial
        | ok routes =>
          refine AtMost.op ?_ fun r => ?_
          · cases K <;> exact Nat.le_refl _
          rcases r with e | node
          · trivial
          · cases node <;> trivial

theorem etbStatus_atMost : AtMost K.has (etbStatus lib api .valid) (K.weight .all +
    (K.weight .all + (K.weight .all + (K.weight .all +
      (K.weight .all + (K.weight .all + (K.weight .all + 0))))))) := by
  refine AtMost.op ?_ fun id => ?_
  · cases K <;> exact Nat.le_refl _
  cases id with
  | none => trivial
  | some id =>
    refine AtMost.op weight_port fun port => ?_
    cases port with
    | none => trivial
    | some port => exact networkStatus_atMost id

theorem etbSupervisorStatus_atMost : AtMost (K.onHost lib api) (etbSupervisorStatus lib .valid)
    (K.weight .all + (K.weight .all + (K.weight .all + 0))) := by
  refine AtMost.op weight_port fun port => ?_
  refine AtMost.op ?_ fun connected => AtMost.op ?_ fun installed => trivial
  · cases K <;> exact Nat.le_refl _
  · cases K <;> exact Nat.le_refl _

/-- The code of a call keeps to its cost. -/
theorem body_atMost (K : OpKind) (k : HandleFn) :
    AtMost K.has (HandleFn.body lib api k) (k.cost K) := by
  cases k with
  | connect toml =>
    cases toml with
    | none => trivial
    | some toml =>
      have hcall : AtMost (K.onHost lib api) (etbConnect lib .valid (some toml)) _ :=
        (connectNetwork_atMost toml).map resultToCstr
      refine ((atMost_onHandle hcall).map Returned.message).mono ?_
      cases K <;> exact Nat.le_refl _
  | disconnect =>
    have hcall : AtMost (K.onHost lib api) (etbDisconnect lib .valid) _ :=
      disconnectNetwork_atMost.map fun _ => resultToCstr (.ok ())
    refine ((atMost_onHandle hcall).map Returned.message).mono ?_
    cases K <;> exact Nat.le_refl _
  | status =>
    refine (etbStatus_atMost.map Returned.status).mono ?_
    cases K <;> exact Nat.le_refl _
  | supervisorStatus =>
    refine ((atMost_onHandle etbSupervisorStatus_atMost).map Returned.supervisorStatus).mono ?_
    cases K <;> exact Nat.le_refl _

/-! ## Calls go on -/

/-- Every operation can go somehow. -/
theorem op_goes (h : Host) (o : HandleOp lib api) :
    ∃ x, ((calls lib api).machine.act h o x).isSome = true := by
  cases o with
  | host o =>
    cases o with
    | start => exact ⟨Asked.refused "", rfl⟩
    | stop => exact ⟨Asked.refused "", rfl⟩
    | run port id config => exact ⟨Called.portal "", rfl⟩
    | delete port id => exact ⟨Called.portal "", rfl⟩
    | isConnected | port | setPort | setInstance | takeInstance | installed => exact ⟨(), rfl⟩
  | instanceId => exact ⟨(), rfl⟩
  | peerClient port => exact ⟨.error "", rfl⟩
  | listPeer port id => exact ⟨.error "", rfl⟩
  | listRoute port id => exact ⟨.error "", rfl⟩
  | showNodeInfo port id => exact ⟨.error "", rfl⟩

end EasyTierMac.Bridge
