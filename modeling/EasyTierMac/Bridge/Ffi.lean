import EasyTierMac.Bridge.Rpc

/-!
# The C functions of the bridge (`ffi.rs`)

`etb_connect` and `etb_disconnect` are sequences of fallible operations: the first ends
at the first error, the second goes on. `forwardEvents` keeps the port of `RpcClient` in
step with the supervisor's events, and hands each event to the callback.
-/

namespace EasyTierMac.Bridge

open Rust (Text)

variable {lib : Easytier}

/-- An `EtbHandle *`. -/
inductive Handle
  | null
  | valid
  deriving DecidableEq, Repr

/-- `to_cstr`. -/
def toCstr (s : String) : String :=
  if s.toList.contains '\x00' then "bridge: string contained interior nul" else s

/-- `result_to_cstr`: NULL on success. -/
def resultToCstr : Except String Unit → Option String
  | .ok () => none
  | .error e => some (toCstr e)

/-! ## Network lifecycle -/

/-- The body of `etb_connect`. -/
def connectNetwork (lib : Easytier) (toml : Text) : Call lib (Except String Unit) :=
  .op .start fun
    | .error e => .ret (.error e)
    | .ok info => .op (.setPort (some info.rpcPort)) fun _ => do
      match ← runNetworkInstance lib toml with
      | .error e => return .error e
      | .ok id => Program.op (.setInstance (some id)) fun _ => .ret (.ok ())

/-- `etb_connect`: NULL on success, else an error string. -/
def etbConnect (lib : Easytier) (handle : Handle) (toml : Option Text) : Call lib (Option String) :=
  match handle, toml with
  | .null, _ => .ret (resultToCstr (.error "bridge: null handle"))
  | .valid, none => .ret (resultToCstr (.error "bridge: null config"))
  | .valid, some toml => do return resultToCstr (← connectNetwork lib toml)

/-- In `etb_disconnect`: delete the recorded instance. -/
def deleteRecorded : Option Uuid → Call lib Unit
  | none => .ret ()
  | some id => .op .port fun
    | none => .ret ()
    | some _ => do
      let _ ← deleteNetworkInstance id
      return ()

/-- The body of `etb_disconnect`. -/
def disconnectNetwork (lib : Easytier) : Call lib Unit :=
  .op .takeInstance fun id => do
    deleteRecorded id
    Program.op .stop fun _ => .op (.setPort none) fun _ => .ret ()

/-- `etb_disconnect`: NULL on success. -/
def etbDisconnect (lib : Easytier) (handle : Handle) : Call lib (Option String) :=
  match handle with
  | .null => .ret (resultToCstr (.error "bridge: null handle"))
  | .valid => do
    disconnectNetwork lib
    return resultToCstr (.ok ())

/-! ## Status -/

/-- The JSON of `etb_supervisor_status`. -/
structure SupervisorStatus where
  connected : Bool
  coreRunning : Bool
  rpcPort : Option UInt16
  installed : Bool
  deriving DecidableEq, Repr

/-- `etb_supervisor_status`. -/
def etbSupervisorStatus (lib : Easytier) (handle : Handle) : Call lib SupervisorStatus :=
  match handle with
  | .null => .op .installed fun installed => .ret ⟨false, false, none, installed⟩
  | .valid => .op .port fun port => .op .isConnected fun connected =>
    .op .installed fun installed => .ret ⟨connected, port.isSome, port, installed⟩

/-! ## Event forwarding -/

/-- What `forward_events` does to the port. -/
def forwardPort (port : Option UInt16) : SupervisorEvent → Option UInt16
  | .connected _ _ (some p) => some p
  | .coreStarted _ p => some p
  | .coreStopped _ | .coreExited _ _ => none
  | _ => port

/-- `forward_events`: the port, and the events handed to the callback. -/
def forwardEvents (st : Option UInt16 × List SupervisorEvent) (evs : List SupervisorEvent) :
    Option UInt16 × List SupervisorEvent :=
  evs.foldl (fun st ev => (forwardPort st.1 ev, st.2 ++ [ev])) st

theorem forwardEvents_eq (port : Option UInt16) (out evs : List SupervisorEvent) :
    forwardEvents (port, out) evs = (evs.foldl forwardPort port, out ++ evs) := by
  unfold forwardEvents
  induction evs generalizing port out with
  | nil => simp
  | cons ev evs ih => simpa using ih (forwardPort port ev) (out ++ [ev])

end EasyTierMac.Bridge
