import EasyTierMac.Bridge.Ffi
import EasyTierMac.Interleaving

/-!
# The calls of one handle (`ffi.rs`, `rpc.rs`)

Calls of `etb_connect`, `etb_disconnect`, `etb_status` and `etb_supervisor_status` on one
handle share its supervisor client, its port and its instance id, and any of them can run at
the same time as others. `HandleOp` adds to `Op` what `etb_status` does. `calls` is the
service that they make together: around their operations, `forward_events` handles the
events of the supervisor, the core may exit, and the control session may come and go.
-/

namespace EasyTierMac.Bridge

open Rust (Text)

variable {lib : Easytier}

/-- What `network_status` uses of the `easytier` crate: what the RPCs answer, and the rows
that are made of it. -/
structure PeerManage where
  PeerInfo : Type
  Route : Type
  NodeInfo : Type
  PeerRow : Type
  /-- The row of the local node. -/
  localRow : NodeInfo → PeerRow
  /-- `peer_row_from_pair`, for each pair of `list_peer_route_pair`. -/
  pairRows : List PeerInfo → List Route → List PeerRow

/-- Peer/route snapshot for one running instance. -/
structure NetworkStatus (api : PeerManage) where
  instanceId : Uuid
  rows : List api.PeerRow

/-! ## Operations -/

inductive HandleOp (lib : Easytier) (api : PeerManage)
  | host (o : Op lib)
  /-- Read `instance_id`. -/
  | instanceId
  /-- `peer_client`. -/
  | peerClient (port : UInt16)
  | listPeer (port : UInt16) (id : Uuid)
  | listRoute (port : UInt16) (id : Uuid)
  | showNodeInfo (port : UInt16) (id : Uuid)

/-- The result of an operation. -/
def HandleOp.Res {lib : Easytier} {api : PeerManage} : HandleOp lib api → Type
  | .host o => o.Res
  | .instanceId => Option Uuid
  | .peerClient _ => Except String Unit
  | .listPeer _ _ => Except String (List api.PeerInfo)
  | .listRoute _ _ => Except String (List api.Route)
  | .showNodeInfo _ _ => Except String (Option api.NodeInfo)

/-- How an operation goes. -/
def HandleOp.Outcome {lib : Easytier} {api : PeerManage} : HandleOp lib api → Type
  | .host o => o.Outcome
  | .instanceId => Unit
  | .peerClient _ => Except String Unit
  | .listPeer _ _ => Except String (List api.PeerInfo)
  | .listRoute _ _ => Except String (List api.Route)
  | .showNodeInfo _ _ => Except String (Option api.NodeInfo)

/-- A query at the portal of a core: it may fail, and nobody answers where no core listens. -/
def Host.query {α : Type} (h : Host) (port : UInt16) :
    Except String α → Option (Except String α × Host)
  | .ok a => if h.listens port then some (.ok a, h) else none
  | .error e => some (.error e, h)

/-- What the operations do. -/
def handle (lib : Easytier) (api : PeerManage) :
    Program.Machine Host (HandleOp lib api) HandleOp.Res where
  Outcome := HandleOp.Outcome
  act h o := match o with
    | .host o => (host lib).act h o
    | .instanceId => fun _ => some (h.instanceId, h)
    | .peerClient port | .listPeer port _ | .listRoute port _ | .showNodeInfo port _ => h.query port

abbrev HandleCall (lib : Easytier) (api : PeerManage) (α : Type) : Type :=
  Program (HandleOp lib api) HandleOp.Res α

variable {api : PeerManage} {α : Type}

/-- A call of `Ffi.lean` on the handle. -/
def onHandle : Call lib α → HandleCall lib api α
  | .ret a => .ret a
  | .op o k => .op (.host o) fun r => onHandle (k r)

/-! ## Status -/

/-- `network_status`. -/
def networkStatus (lib : Easytier) (api : PeerManage) (id : Uuid) :
    HandleCall lib api (Except String (NetworkStatus api)) :=
  .op (.host .port) fun
    | none => .ret (.error "core is not running (no rpc port)")
    | some port => .op (.peerClient port) fun
      | .error e => .ret (.error ("connect rpc portal: " ++ e))
      | .ok () => .op (.listPeer port id) fun
        | .error e => .ret (.error ("list peers: " ++ e))
        | .ok peers => .op (.listRoute port id) fun
          | .error e => .ret (.error ("list routes: " ++ e))
          | .ok routes => .op (.showNodeInfo port id) fun
            | .ok (some node) => .ret (.ok ⟨id, api.localRow node :: api.pairRows peers routes⟩)
            | _ => .ret (.ok ⟨id, api.pairRows peers routes⟩)

/-- `etb_status`: what stands under `"ok"` or `"err"`. -/
def etbStatus (lib : Easytier) (api : PeerManage) (handle : Handle) :
    HandleCall lib api (Except String (NetworkStatus api)) :=
  match handle with
  | .null => .ret (.error "bridge: null handle")
  | .valid => .op .instanceId fun
    | none => .ret (.error "not connected")
    | some id => .op (.host .port) fun
      | none => .ret (.error "core is not running")
      | some _ => networkStatus lib api id

/-! ## The service -/

/-- A call on the handle. -/
inductive HandleFn
  | connect (toml : Option Text)
  | disconnect
  | status
  | supervisorStatus
  deriving DecidableEq, Repr

/-- What a call returns. -/
inductive Returned (api : PeerManage)
  | message (err : Option String)
  | status (r : Except String (NetworkStatus api))
  | supervisorStatus (s : SupervisorStatus)

/-- The code of a call. -/
def HandleFn.body (lib : Easytier) (api : PeerManage) : HandleFn → HandleCall lib api (Returned api)
  | .connect toml => do return .message (← onHandle (etbConnect lib .valid toml))
  | .disconnect => do return .message (← onHandle (etbDisconnect lib .valid))
  | .status => do return .status (← etbStatus lib api .valid)
  | .supervisorStatus => do return .supervisorStatus (← onHandle (etbSupervisorStatus lib .valid))

/-- What happens around the calls. -/
inductive HostEvent
  /-- `forward_events` handles an event of the supervisor. -/
  | forward (ev : SupervisorEvent)
  /-- The core exits on its own. -/
  | exits
  /-- The control session ends. -/
  | lost
  /-- A control session begins. -/
  | back
  /-- The supervisor is installed or uninstalled. -/
  | installs (on : Bool)
  deriving DecidableEq, Repr

def HostEvent.effect : HostEvent → Host → Host
  | .forward ev, h => { h with port := forwardPort h.port ev }
  | .exits, h => { h with core := none }
  | .lost, h => { h with session := false }
  | .back, h => { h with session := true }
  | .installs on, h => { h with installed := on }

/-- The calls of one handle. -/
def calls (lib : Easytier) (api : PeerManage) :
    Service Host (HandleOp lib api) HandleOp.Res HandleFn (Returned api) HostEvent where
  machine := handle lib api
  body := HandleFn.body lib api
  effect := HostEvent.effect

end EasyTierMac.Bridge
