import EasyTierMac.Bridge.Session
import EasyTierMac.Program

/-!
# The core and its RPC portal (`rpc.rs`)

The calls of a bridge handle work on shared state: the supervisor and the core that it
manages, the port of `RpcClient`, the recorded instance id. `Op` lists the atomic
operations by which they do so, and `host` what each of them does; how a request or an RPC
goes is its outcome. `runNetworkInstance` and `deleteNetworkInstance` are written with
these operations.

The `easytier` and `toml` crates are not part of the repository: what is used of them is
the parameter `Easytier`.
-/

namespace EasyTierMac.Bridge

open Rust (Text)

abbrev Uuid := BitVec 128

/-! ## Configurations -/

/-- What `rpc.rs` uses of the `easytier` and `toml` crates. -/
structure Easytier where
  TomlConfigLoader : Type
  NetworkConfig : Type
  newFromStr : Text → Except String TomlConfigLoader
  getId : TomlConfigLoader → Uuid
  newFromConfig : TomlConfigLoader → Except String NetworkConfig
  /-- The error of `parse::<toml::Table>`. -/
  tomlError : Text → Option String

/-- `friendly_config_error`. -/
def friendlyConfigError (lib : Easytier) (toml : Text) (raw : String) : String :=
  match lib.tomlError toml with
  | some e => "配置解析失败: " ++
      String.ofList ((Rust.lines e.toList).head?.getD "TOML parse error".toList)
  | none =>
    let stripped := Rust.remove "invalid config:".toList
      (Rust.remove "failed to parse config file:".toList
        (Rust.remove (Rust.trim toml) (Rust.remove toml raw.toList)))
    let msg := Rust.trim (Rust.trimEndMatches ':' (Rust.trim stripped))
    if msg = [] then "配置无效(字段校验失败)" else "配置无效: " ++ String.ofList msg

/-- The first lines of `run_network_instance`: the instance id and its configuration. -/
def loadConfig (lib : Easytier) (toml : Text) : Except String (Uuid × lib.NetworkConfig) :=
  match lib.newFromStr toml with
  | .error e => .error (friendlyConfigError lib toml e)
  | .ok loader =>
    match lib.newFromConfig loader with
    | .error e => .error (friendlyConfigError lib toml e)
    | .ok config => .ok (lib.getId loader, config)

/-! ## Operations -/

/-- A running core. -/
structure Core where
  pid : Int32
  rpcPort : UInt16
  /-- The network instances it runs. -/
  instances : List Uuid := []
  deriving DecidableEq, Repr

/-- What the calls of a handle share. -/
structure Host where
  /-- The core that the supervisor manages. -/
  core : Option Core := none
  /-- The control session is up (`is_connected`). -/
  session : Bool := false
  /-- `RpcClient::port`. -/
  port : Option UInt16 := none
  instanceId : Option Uuid := none
  /-- `installation_status().installed`. -/
  installed : Bool := false
  deriving DecidableEq, Repr

/-- Why an RPC fails: no connection to the portal, or the call itself. -/
inductive RpcError
  | portal (e : String)
  | call (e : String)
  deriving DecidableEq, Repr

inductive Op (lib : Easytier)
  /-- `supervisor.start()`. -/
  | start
  /-- `supervisor.stop()`. -/
  | stop
  | isConnected
  | port
  | setPort (port : Option UInt16)
  /-- The `run_network_instance` RPC. -/
  | run (port : UInt16) (id : Uuid) (config : lib.NetworkConfig)
  /-- The `delete_network_instance` RPC. -/
  | delete (port : UInt16) (id : Uuid)
  | setInstance (id : Option Uuid)
  | takeInstance
  | installed

/-- The result of an operation. -/
def Op.Res {lib : Easytier} : Op lib → Type
  | .start => Except String StartInfo
  | .stop => Except String Unit
  | .isConnected | .installed => Bool
  | .port => Option UInt16
  | .run .. | .delete .. => Except RpcError Unit
  | .takeInstance => Option Uuid
  | .setPort _ | .setInstance _ => Unit

/-- How a request to the supervisor goes. -/
inductive Asked (info : Type)
  /-- It is carried out and answered. -/
  | answered (info : info)
  /-- It is not carried out. -/
  | refused (e : String)
  /-- It is carried out, but its answer does not arrive in time. -/
  | unanswered (e : String) (info : info)
  /-- The control session ends, and the supervisor stops the core. -/
  | dropped (e : String)

/-- How an RPC goes. -/
inductive Called
  | answered
  | portal (e : String)
  /-- The call fails, and may have been carried out. -/
  | failed (e : String) (done : Bool)

/-- How an operation goes. The supervisor chooses pid and port of a new core. -/
def Op.Outcome {lib : Easytier} : Op lib → Type
  | .start => Asked StartInfo
  | .stop => Asked Unit
  | .run .. | .delete .. => Called
  | _ => Unit

namespace Host

/-- The supervisor starts a core, unless it runs one already. -/
def startCore (h : Host) (info : StartInfo) : Host × StartInfo :=
  match h.core with
  | some c => ({ h with session := true }, ⟨c.pid, c.rpcPort⟩)
  | none =>
    ({ h with session := true, core := some { pid := info.pid, rpcPort := info.rpcPort } }, info)

@[simp] theorem startCore_core (h : Host) (info : StartInfo) :
    (h.startCore info).1.core.isSome = true := by
  unfold startCore
  split
  · next c hc => exact Option.isSome_of_eq_some hc
  · rfl

@[simp] theorem startCore_port (h : Host) (info : StartInfo) :
    (h.startCore info).1.port = h.port := by
  unfold startCore
  split
  · rfl
  · rfl

@[simp] theorem startCore_instanceId (h : Host) (info : StartInfo) :
    (h.startCore info).1.instanceId = h.instanceId := by
  unfold startCore
  split
  · rfl
  · rfl

/-- A core that runs already answers with its own port. -/
theorem startCore_running {h : Host} {c : Core} (hc : h.core = some c) (info : StartInfo) :
    (h.startCore info).2.rpcPort = c.rpcPort := by
  unfold startCore
  rw [hc]

/-- The supervisor stops its core. -/
def stopCore (h : Host) : Host := { h with session := true, core := none }

/-- The control session ends, and with it the core. -/
def drop (h : Host) : Host := { h with session := false, core := none }

/-- An RPC changes the instances of the core. -/
def modInstances (h : Host) (f : List Uuid → List Uuid) : Host :=
  { h with core := h.core.map fun c => { c with instances := f c.instances } }

/-- The core listens on this port. -/
def listens (h : Host) (port : UInt16) : Bool := h.core.any fun c => c.rpcPort == port

/-- An RPC at the portal of a core. -/
def rpc (h : Host) (port : UInt16) (f : List Uuid → List Uuid) :
    Called → Option (Except RpcError Unit × Host)
  | .answered => if h.listens port then some (.ok (), h.modInstances f) else none
  | .portal e => some (.error (.portal e), h)
  | .failed e done =>
    if h.listens port then some (.error (.call e), if done then h.modInstances f else h) else none

end Host

/-- What the operations do. -/
def host (lib : Easytier) : Program.Machine Host (Op lib) Op.Res where
  Outcome := Op.Outcome
  act h o := match o with
    | .start => fun
      | .answered info => some (.ok (h.startCore info).2, (h.startCore info).1)
      | .refused e => some (.error e, h)
      | .unanswered e info => some (.error e, (h.startCore info).1)
      | .dropped e => some (.error e, h.drop)
    | .stop => fun
      | .answered _ => some (.ok (), h.stopCore)
      | .refused e => some (.error e, h)
      | .unanswered e _ => some (.error e, h.stopCore)
      | .dropped e => some (.error e, h.drop)
    | .isConnected => fun _ => some (h.session, h)
    | .port => fun _ => some (h.port, h)
    | .setPort port => fun _ => some ((), { h with port := port })
    | .run port id _ => h.rpc port fun ids => id :: ids.erase id
    | .delete port id => h.rpc port fun ids => ids.erase id
    | .setInstance id => fun _ => some ((), { h with instanceId := id })
    | .takeInstance => fun _ => some (h.instanceId, { h with instanceId := none })
    | .installed => fun _ => some (h.installed, h)

/-! ## RPC calls -/

abbrev Call (lib : Easytier) (α : Type) : Type := Program (Op lib) Op.Res α

variable {lib : Easytier}

/-- The text of an RPC error. -/
def RpcError.text (what : String) : RpcError → String
  | .portal e => "connect rpc portal: " ++ e
  | .call e => what ++ ": " ++ e

/-- `try_run_network_instance`. -/
def tryRunNetworkInstance (id : Uuid) (config : lib.NetworkConfig) : Call lib (Except String Unit) :=
  .op .port fun
    | none => .ret (.error "core is not running (no rpc port)")
    | some port => .op (.run port id config) fun
      | .error e => .ret (.error (e.text "run network instance"))
      | .ok () => .ret (.ok ())

def MAX_ATTEMPTS : Nat := 30

/-- The loop of `run_network_instance`, with its last error. -/
def runAttempts (id : Uuid) (config : lib.NetworkConfig) :
    Nat → String → Call lib (Except String Uuid)
  | 0, lastErr => .ret (.error ("run network instance failed after " ++ toString MAX_ATTEMPTS ++
      " attempts: " ++ lastErr))
  | left + 1, _ => do
    match ← tryRunNetworkInstance id config with
    | .ok () => return .ok id
    | .error e => runAttempts id config left e

/-- `run_network_instance`. -/
def runNetworkInstance (lib : Easytier) (toml : Text) : Call lib (Except String Uuid) :=
  match loadConfig lib toml with
  | .error e => .ret (.error e)
  | .ok (id, config) => runAttempts id config MAX_ATTEMPTS ""

/-- `delete_network_instance`. -/
def deleteNetworkInstance (id : Uuid) : Call lib (Except String Unit) :=
  .op .port fun
    | none => .ret (.error "core is not running (no rpc port)")
    | some port => .op (.delete port id) fun
      | .error e => .ret (.error (e.text "delete network instance"))
      | .ok () => .ret (.ok ())

end EasyTierMac.Bridge
