import Mathlib.Data.List.Permutation
import EasyTierMac.Bridge.Calls
import EasyTierMac.Properties.NothingLeft

/-!
# The calls of a handle are not serialised

The header promises that the functions with a handle can be called from any thread, and are
serialised inside. They are not: each call locks the port and the instance id for a moment
only, and `block_on` runs it on the thread of its caller. A disconnect that begins while a
connect runs the instance finds no instance id, stops the core and returns, and then the
connect records the instance (`connect_disconnect_mixed`).

The calls are serialisable as long as those that overlap only read, and nothing changes under
them (`calls_serialisable`). The calls of one caller that waits for each of them are: they do
not overlap, whatever `forward_events` does meanwhile.
-/

namespace EasyTierMac.Bridge

open Program (Runs All)
open Transition (System)

variable {lib : Easytier} {api : PeerManage} {h h' : Host}

/-- The core, the RPC port and the recorded instance. -/
def Host.view (h : Host) : Option Core × Option UInt16 × Option Uuid := (h.core, h.port, h.instanceId)

/-- The call changes something. -/
def HandleFn.writes : HandleFn → Bool
  | .connect _ | .disconnect => true
  | .status | .supervisorStatus => false

/-! ## The calls that only read -/

theorem Host.query_reads {α : Type} {port : UInt16} {x r : Except String α}
    (hact : h.query port x = some (r, h')) : h' = h := by
  cases x with
  | error e =>
    cases hact
    rfl
  | ok a =>
    obtain ⟨-, hact⟩ := Option.ite_none_right_eq_some.mp hact
    cases hact
    rfl

/-- The operations of the calls that only read. -/
def HandleOp.IsRead : HandleOp lib api → Prop
  | .host .port | .host .isConnected | .host .installed => True
  | .host _ => False
  | _ => True

theorem HandleOp.IsRead.reads {o : HandleOp lib api} (ho : o.IsRead) : (calls lib api).Reads o := by
  intro s x r s' hact
  cases o with
  | host o =>
    cases o with
    | port | isConnected | installed =>
      cases hact
      rfl
    | _ => exact ho.elim
  | instanceId =>
    cases hact
    rfl
  | peerClient port | listPeer port id | listRoute port id | showNodeInfo port id =>
    exact Host.query_reads hact

theorem networkStatus_isRead (id : Uuid) : All HandleOp.IsRead (networkStatus lib api id) := by
  refine ⟨trivial, fun port => ?_⟩
  cases port with
  | none => trivial
  | some port =>
    refine ⟨trivial, fun client => ?_⟩
    cases client with
    | error e => trivial
    | ok u =>
      refine ⟨trivial, fun peers => ?_⟩
      cases peers with
      | error e => trivial
      | ok peers =>
        refine ⟨trivial, fun routes => ?_⟩
        cases routes with
        | error e => trivial
        | ok routes =>
          refine ⟨trivial, fun node => ?_⟩
          rcases node with e | (_ | node)
          · trivial
          · trivial
          · trivial

theorem etbStatus_isRead : All HandleOp.IsRead (etbStatus lib api .valid) := by
  refine ⟨trivial, fun id => ?_⟩
  cases id with
  | none => trivial
  | some id =>
    refine ⟨trivial, fun port => ?_⟩
    cases port with
    | none => trivial
    | some port => exact networkStatus_isRead id

theorem body_reads (k : HandleFn) (hk : k.writes = false) :
    All (calls lib api).Reads ((calls lib api).body k) := by
  refine (?_ : All HandleOp.IsRead _).mono fun o ho => ho.reads
  cases k with
  | connect toml | disconnect => cases hk
  | status => exact etbStatus_isRead.bind fun r => trivial
  | supervisorStatus => exact ⟨trivial, fun port => ⟨trivial, fun c => ⟨trivial, fun i => trivial⟩⟩⟩

/-- **The calls of a handle are serialisable** as long as those that overlap only read, and
nothing changes under them. -/
theorem calls_serialisable (lib : Easytier) (api : PeerManage) (h₀ : Host)
    (p : Service.Pool Host (HandleOp lib api) HandleOp.Res HandleFn (Returned api) HostEvent)
    (h : ((calls lib api).system h₀).ReachableBy ((calls lib api).Unmixed HandleFn.writes) p) :
    (calls lib api).Serialisable Host.view h₀ p :=
  Service.serialisable Host.view body_reads h

/-! ## What a serial run cannot do -/

/-- A run on the handle is one of the call that it is made of. -/
theorem runs_onHandle {α : Type} {c : Call lib α} {tr : (handle lib api).Trace} {a : α}
    (hrun : Runs (handle lib api) (onHandle c) h tr a h') :
    ∃ tr' : (host lib).Trace, Runs (host lib) c h tr' a h' := by
  induction c generalizing h tr with
  | ret b =>
    obtain ⟨-, rfl, rfl⟩ := Program.runs_ret.mp hrun
    exact ⟨[], .ret⟩
  | op o k ih =>
    obtain ⟨x, r, h₁, tr₁, rfl, hact, hrun⟩ := Program.runs_op.mp hrun
    obtain ⟨tr', hrun'⟩ := ih r hrun
    exact ⟨_, .op hact hrun'⟩

/-- After a connect that succeeds the core runs. -/
theorem etbConnect_core {toml : Option Rust.Text} {tr : (host lib).Trace}
    (hrun : Runs (host lib) (etbConnect lib .valid toml) h tr none h') : h'.core.isSome = true := by
  cases toml with
  | none => cases (Program.runs_ret.mp hrun).2.1
  | some toml =>
    obtain ⟨res, h₁, tr₁, tr₂, -, hnet, hret⟩ := Program.runs_bind.mp hrun
    obtain ⟨-, hres, rfl⟩ := Program.runs_ret.mp hret
    cases res with
    | error e => cases hres
    | ok u =>
      obtain ⟨x, r, h₂, tr₃, -, hact, hnet⟩ := Program.runs_op.mp hnet
      cases x with
      | answered info =>
        cases hact
        obtain ⟨x, r, h₃, tr₄, -, hact, hnet⟩ := Program.runs_op.mp hnet
        cases hact
        obtain ⟨res, h₄, tr₅, tr₆, -, hrpc, hnet⟩ := Program.runs_bind.mp hnet
        have hkept := rpc_call (runNetworkInstance_isRpc toml) hrpc
        cases res with
        | error e => cases (Program.runs_ret.mp hnet).2.1
        | ok id =>
          obtain ⟨x, r, h₅, tr₇, -, hact, hnet⟩ := Program.runs_op.mp hnet
          cases hact
          obtain ⟨-, -, rfl⟩ := Program.runs_ret.mp hnet
          exact hkept.core.trans (h.startCore_core info)
      | refused e | unanswered e info | dropped e =>
        cases hact
        cases (Program.runs_ret.mp hnet).2.1

/-- After a disconnect no instance is recorded. -/
theorem etbDisconnect_instanceId {r : Option String} {tr : (host lib).Trace}
    (hrun : Runs (host lib) (etbDisconnect lib .valid) h tr r h') : h'.instanceId = none := by
  obtain ⟨u, h₁, tr₁, tr₂, -, hnet, hret⟩ := Program.runs_bind.mp hrun
  obtain ⟨-, -, rfl⟩ := Program.runs_ret.mp hret
  obtain ⟨x, id, h₂, tr₃, -, hact, hnet⟩ := Program.runs_op.mp hnet
  cases hact
  obtain ⟨u₁, h₃, tr₄, tr₅, -, hdel, hnet⟩ := Program.runs_bind.mp hnet
  have hkept := rpc_call (deleteRecorded_isRpc h.instanceId) hdel
  obtain ⟨x, res, h₄, tr₆, -, hact, hnet⟩ := Program.runs_op.mp hnet
  obtain ⟨y, v, h₅, tr₇, -, hset, hnet⟩ := Program.runs_op.mp hnet
  obtain ⟨-, -, rfl⟩ := Program.runs_ret.mp hnet
  cases hset
  cases x <;> cases hact <;> exact hkept.instanceId

namespace Trial

/-- Every text is a configuration, for the instance 1. -/
def crates : Easytier where
  TomlConfigLoader := Unit
  NetworkConfig := Unit
  newFromStr _ := .ok ()
  getId _ := 1
  newFromConfig _ := .ok ()
  tomlError _ := none

/-- No peers. -/
def noPeers : PeerManage where
  PeerInfo := Unit
  Route := Unit
  NodeInfo := Unit
  PeerRow := Unit
  localRow _ := ()
  pairRows _ _ := []

/-- Requests are answered, and a new core gets pid 7 and port 15888. -/
def goesWell : (o : HandleOp crates noPeers) → o.Outcome
  | .host .start => Asked.answered ⟨7, 15888⟩
  | .host .stop => Asked.answered ()
  | .host (.run ..) | .host (.delete ..) => Called.answered
  | .host .isConnected | .host .port | .host (.setPort _) | .host (.setInstance _) => ()
  | .host .takeInstance | .host .installed | .instanceId => ()
  | .peerClient _ => .ok ()
  | .listPeer _ _ | .listRoute _ _ => .ok []
  | .showNodeInfo _ _ => .ok none

/-- The call `i` performs its next `n` operations. -/
def performs (i n : Nat) : List (calls crates noPeers).Action :=
  List.replicate n (.perform i goesWell)

/-- A disconnect comes between the `run_network_instance` of a connect and the record of it. -/
def between : List (calls crates noPeers).Action :=
  [.invoke (.connect (some [])), .invoke .disconnect] ++ performs 0 4 ++ performs 1 3 ++
    [.finish 1] ++ performs 0 1 ++ [.finish 0]

/-- After a connect two status calls overlap, and the core exits while a third one runs. -/
def asked : List (calls crates noPeers).Action :=
  [.invoke (.connect (some []))] ++ performs 0 5 ++
    [.finish 0, .invoke .status, .invoke .supervisorStatus] ++ performs 1 2 ++ performs 2 2 ++
    performs 1 5 ++ [.finish 1] ++ performs 2 1 ++ [.finish 2, .invoke .supervisorStatus] ++
    performs 3 1 ++ [.event .exits, .event (.forward (.coreExited (some 1) none))] ++
    performs 3 2 ++ [.finish 3]

/-- A disconnect has succeeded, and then a connect. -/
def bothSucceed : List (HandleFn × Returned noPeers) → Bool
  | [(.disconnect, .message none), (.connect _, .message none)] => true
  | _ => false

end Trial

/-- A connect that overlaps with a disconnect ends with an instance recorded for the core that
the disconnect has stopped. No serial order explains it: after a connect the core runs, and
after a disconnect nothing is recorded. -/
theorem connect_disconnect_mixed :
    ∃ p, ((calls Trial.crates Trial.noPeers).system {}).Reachable p ∧ p.shared.core = none ∧
      p.shared.instanceId = some 1 ∧
      ¬ (calls Trial.crates Trial.noPeers).Serialisable Host.view {} p := by
  have hrun : (System.runBy (calls Trial.crates Trial.noPeers).step (fun _ _ => True)
      { shared := {} } Trial.between).any (fun p => decide (p.quiet = true ∧ p.events = [] ∧
        p.shared.core = none ∧ p.shared.instanceId = some 1 ∧
        Trial.bothSucceed p.returned = true)) = true := by
    decide +kernel
  obtain ⟨p, hp, hq⟩ := System.exists_reachableBy_of_runBy hrun
  obtain ⟨hquiet, hevents, hcore, hid, hret⟩ := of_decide_eq_true hq
  refine ⟨p, hp, hcore, hid, fun hser => ?_⟩
  obtain ⟨l, s, hl, hs, hview⟩ := hser ((Service.fresh_of_reachable hp).none_of_quiet hquiet)
  have hcore' : s.core = none := (congrArg Prod.fst hview).trans hcore
  have hid' : s.instanceId = some 1 := (congrArg (fun v => v.2.2) hview).trans hid
  unfold Trial.bothSucceed at hret
  split at hret
  · next toml hreturned =>
    rw [hreturned, List.perm_pair] at hl
    rcases hl with hl | hl
    · -- the connect was last
      obtain ⟨s₁, tr, -, hrun⟩ := hs.last (l := [_]) hevents hl
      obtain ⟨r, s₂, tr₁, tr₂, -, hrun, hend⟩ := Program.runs_bind.mp hrun
      obtain ⟨-, hres, rfl⟩ := Program.runs_ret.mp hend
      cases hres
      obtain ⟨tr', hrun⟩ := runs_onHandle hrun
      have hruns := etbConnect_core hrun
      rw [hcore'] at hruns
      cases hruns
    · -- the disconnect was last
      obtain ⟨s₁, tr, -, hrun⟩ := hs.last (l := [_]) hevents hl
      obtain ⟨r, s₂, tr₁, tr₂, -, hrun, hend⟩ := Program.runs_bind.mp hrun
      obtain ⟨-, -, rfl⟩ := Program.runs_ret.mp hend
      obtain ⟨tr', hrun⟩ := runs_onHandle hrun
      rw [etbDisconnect_instanceId hrun] at hid'
      cases hid'
  · cases hret

/-- Status calls overlap, and the core exits under one that is alone. -/
theorem calls_serialisable_asked :
    ∃ p, ((calls Trial.crates Trial.noPeers).system {}).ReachableBy
        ((calls Trial.crates Trial.noPeers).Unmixed HandleFn.writes) p ∧
      (∀ i, p.threads i = none) ∧ p.returned.length = 4 ∧ p.epoch = 2 ∧
      (calls Trial.crates Trial.noPeers).Serialisable Host.view {} p := by
  have hrun : (System.runBy (calls Trial.crates Trial.noPeers).step
      ((calls Trial.crates Trial.noPeers).Unmixed HandleFn.writes) { shared := {} }
      Trial.asked).any (fun p => decide (p.quiet = true ∧ p.returned.length = 4 ∧ p.epoch = 2)) =
        true := by
    decide +kernel
  obtain ⟨p, hp, hq⟩ := System.exists_reachableBy_of_runBy hrun
  obtain ⟨hquiet, hreturned, hepoch⟩ := of_decide_eq_true hq
  exact ⟨p, hp, (Service.fresh_of_reachable hp).none_of_quiet hquiet, hreturned, hepoch,
    calls_serialisable Trial.crates Trial.noPeers {} p hp⟩

end EasyTierMac.Bridge
