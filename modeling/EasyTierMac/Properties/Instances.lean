import EasyTierMac.Bridge.Calls
import EasyTierMac.Interference
import EasyTierMac.Properties.NothingLeft
import EasyTierMac.Properties.Serialised

/-!
# What the calls of a handle say about the network

A handle remembers one instance: the one of the last connect that has succeeded, until a
disconnect. `Remembers` is that memory as an automaton over the calls and their results, and
`session_of_calls` says that the results of the calls are a run of it, and the recorded id its
state, in every run in which the calls that write do not overlap others, whatever happens to the
core and to the control session meanwhile.

`connected_means_running` is about the core: as long as it does not exit on its own, the instance
of the last connect that has succeeded runs in it, until a disconnect or another connect.
-/

namespace EasyTierMac.Bridge

open Program (Ends Stable RunsAmid All)
open Service (Serial)
open Transition (System)

variable {lib : Easytier} {api : PeerManage} {α : Type} {E : HostEvent → Prop}

/-! ## Triples on a handle -/

theorem runsAmid_onHandle {c : Call lib α} {s s' : Host} {es : List HostEvent} {a : α}
    (h : RunsAmid (handle lib api) HostEvent.effect (onHandle c) s es a s') :
    RunsAmid (host lib) HostEvent.effect c s es a s' := by
  generalize hp : onHandle c = p at h
  induction h generalizing c with
  | ret =>
    cases c with
    | ret b =>
      cases hp
      exact .ret
    | op o k => cases hp
  | op hact _ ih =>
    cases c with
    | ret b => cases hp
    | op o k =>
      cases hp
      exact .op hact (ih rfl)
  | event _ ih => exact .event (ih hp)

/-- A triple of a call holds on a handle. -/
theorem Ends.onHandle {P : Host → Prop} {c : Call lib α} {Q : α → Host → Prop}
    (h : Ends (host lib) HostEvent.effect E P c Q) :
    Ends (handle lib api) HostEvent.effect E P (onHandle c) Q := by
  intro s es a s' hes hs hrun
  exact h s es a s' hes hs (runsAmid_onHandle hrun)

/-! ## The recorded instance -/

/-- The operation leaves the recorded instance alone. -/
def Op.recordsNothing : Op lib → Prop
  | .setInstance _ | .takeInstance => False
  | _ => True

theorem Op.recordsNothing.eq {o : Op lib} (ho : o.recordsNothing) {h h' : Host}
    {x : (host lib).Outcome o} {r : o.Res} (hact : (host lib).act h o x = some (r, h')) :
    h'.instanceId = h.instanceId := by
  cases o with
  | setInstance | takeInstance => exact ho.elim
  | start =>
    cases x with
    | answered | unanswered =>
      cases hact
      exact h.startCore_instanceId _
    | refused | dropped =>
      cases hact
      rfl
  | stop => cases x <;> cases hact <;> rfl
  | run port id config => exact (Host.rpc_kept hact).instanceId
  | delete port id => exact (Host.rpc_kept hact).instanceId
  | isConnected | port | setPort | installed =>
    cases hact
    rfl

/-- No event changes the recorded instance. -/
theorem stable_instanceId (E : HostEvent → Prop) (cur : Option Uuid) :
    Stable HostEvent.effect E fun h => h.instanceId = cur := by
  intro e _ h hh
  cases e <;> exact hh

theorem stable_and {P Q : Host → Prop} (hP : Stable HostEvent.effect E P)
    (hQ : Stable HostEvent.effect E Q) : Stable HostEvent.effect E fun h => P h ∧ Q h := by
  intro e he h hh
  exact ⟨hP e he h hh.1, hQ e he h hh.2⟩

theorem stable_const (p : Prop) : Stable HostEvent.effect E fun _ => p := by
  intro _ _ _ hp
  exact hp

/-- A part of a call that does not touch the recorded instance. -/
theorem ends_recordsNothing {p : Call lib α} (hp : All Op.recordsNothing p) (cur : Option Uuid) :
    Ends (host lib) HostEvent.effect E (fun h => h.instanceId = cur) p
      fun _ h => h.instanceId = cur := by
  refine Ends.invariant hp (stable_instanceId E cur) ?_
  intro s o x r s' ho hact hs
  exact (ho.eq hact).trans hs

theorem Op.IsRpc.recordsNothing {o : Op lib} (ho : o.IsRpc) : o.recordsNothing := by
  cases o with
  | port | run | delete => trivial
  | _ => exact ho.elim

/-- The loop returns its own id. -/
theorem attempts_id (id : Uuid) (config : lib.NetworkConfig) (left : Nat) (lastErr : String) :
    Ends (host lib) HostEvent.effect E (fun _ => True) (runAttempts id config left lastErr)
      fun r _ => ∀ id', r = .ok id' → id' = id := by
  have hst : ∀ r : Except String Uuid,
      Stable HostEvent.effect E fun _ : Host => ∀ id', r = .ok id' → id' = id :=
    fun r => stable_const _
  induction left generalizing lastErr with
  | zero =>
    refine Ends.ret (hst _) fun _ _ id' he => ?_
    cases he
  | succ left ih =>
    refine Ends.bind (Q := fun _ _ => True) (fun _ _ _ _ _ _ _ => trivial) fun r => ?_
    cases r with
    | error e => exact ih e
    | ok u =>
      refine Ends.ret (hst _) fun _ _ id' he => ?_
      cases he
      rfl

/-- `run_network_instance` returns the id of its configuration. -/
theorem runNetworkInstance_id (toml : Rust.Text) (cur : Option Uuid) :
    Ends (host lib) HostEvent.effect E (fun h => h.instanceId = cur) (runNetworkInstance lib toml)
      fun r h => h.instanceId = cur ∧
        ∀ id, r = .ok id → ∃ config, loadConfig lib toml = .ok (id, config) := by
  have hkeep : Ends (host lib) HostEvent.effect E (fun h => h.instanceId = cur)
      (runNetworkInstance lib toml) fun _ h => h.instanceId = cur :=
    ends_recordsNothing ((runNetworkInstance_isRpc toml).mono fun _ ho => ho.recordsNothing) cur
  have hid : Ends (host lib) HostEvent.effect E (fun _ => True) (runNetworkInstance lib toml)
      fun r _ => ∀ id, r = .ok id → ∃ config, loadConfig lib toml = .ok (id, config) := by
    unfold runNetworkInstance
    split
    · refine Ends.ret (stable_const _) fun _ _ id he => ?_
      cases he
    · next id config hload =>
      refine (attempts_id id config MAX_ATTEMPTS "").mono (fun _ hs => hs) ?_
      intro r _ hr id' he
      rw [hr id' he]
      exact ⟨config, hload⟩
  refine (hkeep.and hid).mono (fun h hh => ⟨hh, trivial⟩) fun _ _ hq => hq

/-- What a connect makes of the recorded instance `cur`. -/
def Recorded (lib : Easytier) (toml : Rust.Text) (cur : Option Uuid) :
    Except String Unit → Host → Prop
  | .ok (), h => ∃ id config, loadConfig lib toml = .ok (id, config) ∧ h.instanceId = some id
  | .error _, h => h.instanceId = cur

theorem stable_recorded (toml : Rust.Text) (cur : Option Uuid) (r : Except String Unit) :
    Stable HostEvent.effect E (Recorded lib toml cur r) := by
  intro e he h hh
  cases r with
  | error msg => exact stable_instanceId E cur e he h hh
  | ok u =>
    obtain ⟨id, config, hload, hid⟩ := hh
    exact ⟨id, config, hload, stable_instanceId E (some id) e he h hid⟩

theorem connectNetwork_records (toml : Rust.Text) (cur : Option Uuid) :
    Ends (host lib) HostEvent.effect E (fun h => h.instanceId = cur) (connectNetwork lib toml)
      (Recorded lib toml cur) := by
  have hkeep : ∀ {o : Op lib}, o.recordsNothing → ∀ s x (r : o.Res) s', s.instanceId = cur →
      (host lib).act s o x = some (r, s') → s'.instanceId = cur := by
    intro o ho s x r s' hs hact
    exact (ho.eq hact).trans hs
  refine Ends.op (I := fun _ h => h.instanceId = cur) (stable_instanceId E cur)
    (hkeep trivial) fun r => ?_
  cases r with
  | error e => exact Ends.ret (stable_recorded toml cur _) fun _ hs => hs
  | ok info =>
    refine Ends.op (I := fun _ h => h.instanceId = cur) (stable_instanceId E cur)
      (hkeep trivial) fun _ => ?_
    refine Ends.bind (runNetworkInstance_id toml cur) fun r => ?_
    cases r with
    | error e => exact Ends.ret (stable_recorded toml cur _) fun _ hs => hs.1
    | ok id =>
      refine Ends.op (I := fun _ h => Recorded lib toml cur (.ok ()) h) ?_ ?_ fun _ => ?_
      · exact stable_and (stable_instanceId E cur) (stable_const _)
      · intro s x r s' hs hact
        cases hact
        obtain ⟨config, hload⟩ := hs.2 id rfl
        exact ⟨id, config, hload, rfl⟩
      · exact Ends.ret (stable_recorded toml cur _) fun _ hs => hs

theorem disconnectNetwork_forgets :
    Ends (host lib) HostEvent.effect E (fun _ => True) (disconnectNetwork lib)
      fun _ h => h.instanceId = none := by
  have hkeep : ∀ {o : Op lib}, o.recordsNothing → ∀ s x (r : o.Res) s', s.instanceId = none →
      (host lib).act s o x = some (r, s') → s'.instanceId = none := by
    intro o ho s x r s' hs hact
    exact (ho.eq hact).trans hs
  refine Ends.op (I := fun _ h => h.instanceId = none) (stable_const _) ?_ fun id => ?_
  · intro s x r s' _ hact
    cases hact
    rfl
  · refine Ends.bind (Q := fun _ h => h.instanceId = none) ?_ fun _ => ?_
    · exact ends_recordsNothing ((deleteRecorded_isRpc id).mono fun _ ho => ho.recordsNothing) none
    · refine Ends.op (I := fun _ h => h.instanceId = none) (stable_instanceId E none)
        (hkeep trivial) fun _ => ?_
      refine Ends.op (I := fun _ h => h.instanceId = none) (stable_instanceId E none)
        (hkeep trivial) fun _ => ?_
      exact Ends.ret (stable_instanceId E none) fun _ hs => hs

/-! ## Status -/

/-- The texts differ in their first character. -/
theorem append_ne_of_head {a b : String} {x y : Char} (ha : a.toList.head? = some x)
    (hb : b.toList.head? = some y) (hne : x ≠ y) (e : String) : a ++ e ≠ b := by
  intro he
  have hhead : (a.toList ++ e.toList).head? = some y := by
    rw [← String.toList_append, he, hb]
  rw [List.head?_append, ha] at hhead
  exact hne (Option.some.inj hhead)

/-- What a status call says of the recorded instance `cur`. -/
def Tells (cur : Option Uuid) (r : Except String (NetworkStatus api)) : Prop :=
  (r = .error "not connected" ↔ cur = none) ∧ ∀ st, r = .ok st → cur = some st.instanceId

theorem tells_ok {id : Uuid} (rows : List api.PeerRow) :
    Tells (some id) (.ok (⟨id, rows⟩ : NetworkStatus api)) := by
  refine ⟨⟨fun he => ?_, fun he => ?_⟩, fun st he => ?_⟩
  · cases he
  · cases he
  · cases he
    rfl

theorem tells_error {id : Uuid} {e : String} (hne : e ≠ "not connected") :
    Tells (some id) (.error e : Except String (NetworkStatus api)) := by
  refine ⟨⟨fun he => ?_, fun he => ?_⟩, fun st he => ?_⟩
  · cases he
    exact absurd rfl hne
  · cases he
  · cases he

/-- A query leaves the recorded instance alone. -/
theorem query_keeps {cur : Option Uuid} {h h' : Host} {β : Type} {port : UInt16}
    {x r : Except String β} (hcur : h.instanceId = cur) (hact : h.query port x = some (r, h')) :
    h'.instanceId = cur := by
  rw [Host.query_reads hact]
  exact hcur

theorem networkStatus_tells (id : Uuid) :
    Ends (handle lib api) HostEvent.effect E (fun h => h.instanceId = some id)
      (networkStatus lib api id) fun r h => h.instanceId = some id ∧ Tells (some id) r := by
  have hst := stable_instanceId E (some id)
  have hret : ∀ {r : Except String (NetworkStatus api)}, Tells (some id) r →
      Ends (handle lib api) HostEvent.effect E (fun h => h.instanceId = some id) (.ret r)
        fun r h => h.instanceId = some id ∧ Tells (some id) r :=
    fun ht => Ends.ret (stable_and hst (stable_const _)) fun _ hs => ⟨hs, ht⟩
  refine Ends.op (I := fun _ h => h.instanceId = some id) hst ?_ fun port => ?_
  · intro s x r s' hs hact
    cases hact
    exact hs
  cases port with
  | none => exact hret (tells_error (by decide))
  | some port =>
    refine Ends.op (I := fun _ h => h.instanceId = some id) hst
      (fun s x r s' hs hact => query_keeps hs hact) fun r => ?_
    cases r with
    | error e =>
      exact hret (tells_error (append_ne_of_head (x := 'c') (y := 'n') rfl rfl (by decide) e))
    | ok u =>
      refine Ends.op (I := fun _ h => h.instanceId = some id) hst
        (fun s x r s' hs hact => query_keeps hs hact) fun r => ?_
      cases r with
      | error e =>
        exact hret (tells_error (append_ne_of_head (x := 'l') (y := 'n') rfl rfl (by decide) e))
      | ok peers =>
        refine Ends.op (I := fun _ h => h.instanceId = some id) hst
          (fun s x r s' hs hact => query_keeps hs hact) fun r => ?_
        cases r with
        | error e =>
          exact hret (tells_error (append_ne_of_head (x := 'l') (y := 'n') rfl rfl (by decide) e))
        | ok routes =>
          refine Ends.op (I := fun _ h => h.instanceId = some id) hst
            (fun s x r s' hs hact => query_keeps hs hact) fun r => ?_
          cases r with
          | error e => exact hret (tells_ok _)
          | ok node =>
            cases node with
            | none => exact hret (tells_ok _)
            | some node => exact hret (tells_ok _)

theorem etbStatus_tells (cur : Option Uuid) :
    Ends (handle lib api) HostEvent.effect E (fun h => h.instanceId = cur)
      (etbStatus lib api .valid) fun r h => h.instanceId = cur ∧ Tells cur r := by
  refine Ends.op (I := fun r h => h.instanceId = cur ∧ r = cur) (stable_instanceId E cur) ?_
    fun id => ?_
  · intro s x r s' hs hact
    cases hact
    exact ⟨hs, hs⟩
  cases id with
  | none =>
    refine Ends.ret (stable_and (stable_instanceId E cur) (stable_const _)) fun s hs => ⟨hs.1, ?_⟩
    rw [← hs.2]
    refine ⟨⟨fun _ => rfl, fun _ => rfl⟩, fun st he => ?_⟩
    cases he
  | some id =>
    refine Ends.op (I := fun _ h => h.instanceId = cur ∧ some id = cur)
      (stable_and (stable_instanceId E cur) (stable_const _)) ?_ fun port => ?_
    · intro s x r s' hs hact
      cases hact
      exact hs
    cases port with
    | none =>
      refine Ends.ret (stable_and (stable_instanceId E cur) (stable_const _)) fun s hs => ⟨hs.1, ?_⟩
      rw [← hs.2]
      exact tells_error (by decide)
    | some port =>
      intro s es a s' hes hs hrun
      obtain ⟨hcur, hid⟩ := hs
      subst hid
      exact networkStatus_tells id s es a s' hes hcur hrun

/-! ## The memory of a handle -/

/-- What a call with its result makes of the instance that a handle remembers. -/
inductive Remembers (lib : Easytier) (api : PeerManage) :
    Option Uuid → HandleFn × Returned api → Option Uuid → Prop
  | connected {cur : Option Uuid} {toml : Rust.Text} {id : Uuid} {config : lib.NetworkConfig}
      (hload : loadConfig lib toml = .ok (id, config)) :
      Remembers lib api cur (.connect (some toml), .message none) (some id)
  | connectFailed {cur : Option Uuid} {toml : Option Rust.Text} {e : String} :
      Remembers lib api cur (.connect toml, .message (some e)) cur
  | disconnected {cur : Option Uuid} : Remembers lib api cur (.disconnect, .message none) none
  | status {cur : Option Uuid} {r : Except String (NetworkStatus api)} (h : Tells cur r) :
      Remembers lib api cur (.status, .status r) cur
  | supervisorStatus {cur : Option Uuid} {st : SupervisorStatus} :
      Remembers lib api cur (.supervisorStatus, .supervisorStatus st) cur

/-- A sequence of calls with their results, from one remembered instance to another one. -/
inductive Session (lib : Easytier) (api : PeerManage) (cur : Option Uuid) :
    List (HandleFn × Returned api) → Option Uuid → Prop
  | nil : Session lib api cur [] cur
  | call {l : List (HandleFn × Returned api)} {x : HandleFn × Returned api} {id id' : Option Uuid}
      (h : Session lib api cur l id) (hx : Remembers lib api id x id') :
      Session lib api cur (l ++ [x]) id'

/-- The handle remembers what its session says. -/
def InSession (lib : Easytier) (api : PeerManage) (cur : Option Uuid)
    (l : List (HandleFn × Returned api)) (h : Host) : Prop := Session lib api cur l h.instanceId

theorem stable_inSession (cur : Option Uuid) (l : List (HandleFn × Returned api)) :
    Stable HostEvent.effect E (InSession lib api cur l) := by
  intro e _ h hh
  cases e <;> exact hh

/-- A call that takes the remembered instance on. -/
theorem ends_inSession {cur : Option Uuid} {l : List (HandleFn × Returned api)} {k : HandleFn}
    (h : ∀ id, Ends (handle lib api) HostEvent.effect E (fun h => h.instanceId = id)
      (HandleFn.body lib api k) fun r h => Remembers lib api id (k, r) h.instanceId) :
    Ends (handle lib api) HostEvent.effect E (InSession lib api cur l) (HandleFn.body lib api k)
      fun r => InSession lib api cur (l ++ [(k, r)]) := by
  intro s es r s' hes hs hrun
  exact .call hs (h s.instanceId s es r s' hes rfl hrun)

theorem body_remembers (k : HandleFn) (id : Option Uuid) :
    Ends (handle lib api) HostEvent.effect E (fun h => h.instanceId = id)
      (HandleFn.body lib api k) fun r h => Remembers lib api id (k, r) h.instanceId := by
  have hst : ∀ r, Stable HostEvent.effect E
      fun h : Host => Remembers lib api id (k, r) h.instanceId := by
    intro r e _ h hh
    cases e <;> exact hh
  cases k with
  | connect toml =>
    refine Ends.bind (Q := fun r h => Remembers lib api id (.connect toml, .message r) h.instanceId)
      (Ends.onHandle ?_) fun r => Ends.ret (hst _) fun _ hs => hs
    cases toml with
    | none =>
      refine Ends.ret (fun e _ h hh => by cases e <;> exact hh) fun h hh => ?_
      rw [hh]
      exact .connectFailed
    | some toml =>
      refine Ends.bind (connectNetwork_records toml id) fun r => ?_
      refine Ends.ret (fun e _ h hh => by cases e <;> exact hh) fun h hh => ?_
      cases r with
      | error msg =>
        rw [show h.instanceId = id from hh]
        exact .connectFailed
      | ok u =>
        obtain ⟨id', config, hload, hid⟩ := hh
        rw [hid]
        exact .connected hload
  | disconnect =>
    refine Ends.bind (Q := fun r h => Remembers lib api id (.disconnect, .message r) h.instanceId)
      (Ends.onHandle ?_) fun r => Ends.ret (hst _) fun _ hs => hs
    refine Ends.bind (disconnectNetwork_forgets.mono (fun _ _ => trivial) fun _ _ hq => hq) fun u => ?_
    refine Ends.ret (fun e _ h hh => by cases e <;> exact hh) fun h hh => ?_
    rw [hh]
    exact .disconnected
  | status =>
    refine Ends.bind (etbStatus_tells id) fun r => Ends.ret (hst _) fun h hh => ?_
    rw [hh.1]
    exact .status hh.2
  | supervisorStatus =>
    refine Ends.bind (Ends.onHandle (ends_recordsNothing ?_ id)) fun st =>
      Ends.ret (hst _) fun h hh => ?_
    · exact ⟨trivial, fun port => ⟨trivial, fun c => ⟨trivial, fun i => trivial⟩⟩⟩
    · rw [hh]
      exact .supervisorStatus

/-- The core runs this instance. -/
def Host.Runs (h : Host) (id : Uuid) : Prop := ∃ c, h.core = some c ∧ id ∈ c.instances

/-- The core does not exit on its own. -/
def HostEvent.spares : HostEvent → Bool
  | .exits => false
  | _ => true

theorem stable_runs (id : Uuid) :
    Stable HostEvent.effect (fun e => e.spares = true) fun h => h.Runs id := by
  intro e he h hh
  cases e with
  | exits => cases he
  | _ => exact hh

theorem runs_of_rpc {h h' : Host} {port : UInt16} {id : Uuid} {x : Called}
    (hact : h.rpc port (fun ids => id :: ids.erase id) x = some (.ok (), h')) : h'.Runs id := by
  cases x with
  | answered =>
    obtain ⟨hlisten, hact⟩ := Option.ite_none_right_eq_some.mp hact
    cases hact
    cases hcore : h.core with
    | none =>
      rw [Host.listens, hcore] at hlisten
      cases hlisten
    | some c =>
      refine ⟨{ c with instances := id :: c.instances.erase id }, ?_, List.mem_cons_self⟩
      simp [Host.modInstances, hcore]
  | portal e => cases hact
  | failed e done =>
    obtain ⟨-, hact⟩ := Option.ite_none_right_eq_some.mp hact
    cases hact

/-- An attempt that succeeds has run the instance. -/
theorem tryRun_runs (id : Uuid) (config : lib.NetworkConfig) :
    Ends (host lib) HostEvent.effect (fun e => e.spares = true) (fun _ => True)
      (tryRunNetworkInstance id config) fun r h => r = .ok () → h.Runs id := by
  have hst : ∀ r : Except String Unit, Stable HostEvent.effect (fun e => e.spares = true)
      fun h : Host => r = .ok () → h.Runs id := by
    intro r e he h hh hr
    exact stable_runs id e he h (hh hr)
  refine Ends.op (I := fun _ _ => True) (stable_const _) (fun _ _ _ _ _ _ => trivial) fun port => ?_
  cases port with
  | none =>
    refine Ends.ret (hst _) fun _ _ he => ?_
    cases he
  | some port =>
    refine Ends.op (I := fun r h => r = .ok () → h.Runs id) (stable_const _) ?_ fun r => ?_
    · rintro s x r s' - hact rfl
      exact runs_of_rpc hact
    · cases r with
      | error e =>
        refine Ends.ret (hst _) fun _ _ he => ?_
        cases he
      | ok u => exact Ends.ret (hst _) fun _ hs _ => hs rfl

theorem attempts_runs (id : Uuid) (config : lib.NetworkConfig) (left : Nat) (lastErr : String) :
    Ends (host lib) HostEvent.effect (fun e => e.spares = true) (fun _ => True)
      (runAttempts id config left lastErr) fun r h => ∀ id', r = .ok id' → h.Runs id' := by
  have hst : ∀ r : Except String Uuid, Stable HostEvent.effect (fun e => e.spares = true)
      fun h : Host => ∀ id', r = .ok id' → h.Runs id' := by
    intro r e he h hh id' hr
    exact stable_runs id' e he h (hh id' hr)
  induction left generalizing lastErr with
  | zero =>
    refine Ends.ret (hst _) fun _ _ id' he => ?_
    cases he
  | succ left ih =>
    refine Ends.bind (tryRun_runs id config) fun r => ?_
    cases r with
    | error e => exact (ih e).mono (fun _ _ => trivial) fun _ _ hq => hq
    | ok u =>
      refine Ends.ret (hst _) fun h hs id' he => ?_
      cases he
      exact hs rfl

/-- The instance that a connect has recorded runs. -/
theorem connectNetwork_runs (toml : Rust.Text) :
    Ends (host lib) HostEvent.effect (fun e => e.spares = true) (fun _ => True)
      (connectNetwork lib toml) fun r h => r = .ok () →
        ∃ id, h.instanceId = some id ∧ h.Runs id := by
  have hst : ∀ r : Except String Unit, Stable HostEvent.effect (fun e => e.spares = true)
      fun h : Host => r = .ok () → ∃ id, h.instanceId = some id ∧ h.Runs id := by
    intro r e he h hh hr
    obtain ⟨id, hid, hruns⟩ := hh hr
    exact ⟨id, stable_instanceId (fun e => e.spares = true) (some id) e he h hid,
      stable_runs id e he h hruns⟩
  refine Ends.op (I := fun _ _ => True) (stable_const _) (fun _ _ _ _ _ _ => trivial) fun r => ?_
  cases r with
  | error e =>
    refine Ends.ret (hst _) fun _ _ he => ?_
    cases he
  | ok info =>
    refine Ends.op (I := fun _ _ => True) (stable_const _) (fun _ _ _ _ _ _ => trivial) fun _ => ?_
    refine Ends.bind (Q := fun r h => ∀ id, r = .ok id → h.Runs id) ?_ fun r => ?_
    · unfold runNetworkInstance
      split
      · refine Ends.ret ?_ fun _ _ id he => ?_
        · intro _ _ _ _ id he
          cases he
        · cases he
      · exact attempts_runs _ _ _ _
    · cases r with
      | error e =>
        refine Ends.ret (hst _) fun _ _ he => ?_
        cases he
      | ok id =>
        refine Ends.op (I := fun _ h => h.instanceId = some id ∧ h.Runs id) ?_ ?_ fun _ => ?_
        · intro e he h hh id' hid
          exact stable_runs id' e he h (hh id' hid)
        · intro s x r s' hs hact
          cases hact
          exact ⟨rfl, hs id rfl⟩
        · exact Ends.ret (hst _) fun h hs _ => ⟨id, hs⟩

/-- The instance that a handle is connected to, after a call with its result. -/
def linked (lib : Easytier) : Option Uuid → HandleFn × Returned api → Option Uuid
  | _, (.connect (some toml), .message none) => (loadConfig lib toml).toOption.map Prod.fst
  | cur, (.status, _) => cur
  | cur, (.supervisorStatus, _) => cur
  | _, _ => none

/-- A handle that is connected runs the instance that it is connected to. -/
def Linked (lib : Easytier) (l : List (HandleFn × Returned api)) (h : Host) : Prop :=
  ∀ id, l.foldl (linked lib) none = some id → h.instanceId = some id ∧ h.Runs id

theorem stable_linked (l : List (HandleFn × Returned api)) :
    Stable HostEvent.effect (fun e => e.spares = true) (Linked lib l) := by
  intro e he h hh id hid
  obtain ⟨hrec, hruns⟩ := hh id hid
  exact ⟨stable_instanceId (fun e => e.spares = true) (some id) e he h hrec,
    stable_runs id e he h hruns⟩

/-- A connect that succeeds has recorded an instance, and runs it. -/
theorem etbConnect_links (toml : Option Rust.Text) :
    Ends (host lib) HostEvent.effect (fun e => e.spares = true) (fun _ => True)
      (etbConnect lib .valid toml) fun r h => r = none → ∃ text id config, toml = some text ∧
        loadConfig lib text = .ok (id, config) ∧ h.instanceId = some id ∧ h.Runs id := by
  have hst : ∀ r : Option String, Stable HostEvent.effect (fun e => e.spares = true)
      fun h : Host => r = none → ∃ text id config, toml = some text ∧
        loadConfig lib text = .ok (id, config) ∧ h.instanceId = some id ∧ h.Runs id := by
    intro r e he h hh hr
    obtain ⟨text, id, config, htoml, hload, hid, hruns⟩ := hh hr
    exact ⟨text, id, config, htoml, hload,
      stable_instanceId (fun e => e.spares = true) (some id) e he h hid, stable_runs id e he h hruns⟩
  cases toml with
  | none =>
    refine Ends.ret (hst _) fun _ _ he => ?_
    cases he
  | some text =>
    have hends : ∀ cur, Ends (host lib) HostEvent.effect (fun e => e.spares = true)
        (fun h => h.instanceId = cur ∧ True) (etbConnect lib .valid (some text))
        fun r h => r = none → ∃ text' id config, some text = some text' ∧
          loadConfig lib text' = .ok (id, config) ∧ h.instanceId = some id ∧ h.Runs id := by
      intro cur
      refine Ends.bind ((connectNetwork_records text cur).and (connectNetwork_runs text)) fun r => ?_
      refine Ends.ret (hst _) fun h hh he => ?_
      obtain ⟨hrec, hlinks⟩ := hh
      cases r with
      | error e => cases he
      | ok u =>
        obtain ⟨id, config, hload, hid⟩ := hrec
        obtain ⟨id', hid', hruns⟩ := hlinks rfl
        rw [hid] at hid'
        cases hid'
        exact ⟨text, id, config, rfl, hload, hid, hruns⟩
    intro s es r s' hes _ hrun
    exact hends s.instanceId s es r s' hes ⟨rfl, trivial⟩ hrun

theorem body_linked (l : List (HandleFn × Returned api)) (k : HandleFn) :
    Ends (handle lib api) HostEvent.effect (fun e => e.spares = true) (Linked lib l)
      (HandleFn.body lib api k) fun r => Linked lib (l ++ [(k, r)]) := by
  have hsnoc : ∀ r, (l ++ [(k, r)]).foldl (linked lib) none =
      linked lib (l.foldl (linked lib) none) (k, r) := by
    intro r
    rw [List.foldl_append]
    rfl
  have hreads : k.writes = false →
      Ends (handle lib api) HostEvent.effect (fun e => e.spares = true) (Linked lib l)
        (HandleFn.body lib api k) fun _ => Linked lib l := by
    intro hk
    refine Ends.invariant (body_reads k hk) (stable_linked l) ?_
    intro s o x r s' ho hact hs
    rw [ho s x r s' hact]
    exact hs
  cases k with
  | connect toml =>
    refine Ends.bind (Ends.onHandle ((etbConnect_links toml).mono (fun _ _ => trivial)
      fun _ _ hq => hq)) fun r => ?_
    refine Ends.ret (stable_linked _) fun h hh id hid => ?_
    rw [hsnoc] at hid
    cases r with
    | some e =>
      cases toml <;> cases hid
    | none =>
      obtain ⟨text, id', config, rfl, hload, hrec, hruns⟩ := hh rfl
      have hid : (loadConfig lib text).toOption.map Prod.fst = some id := hid
      rw [hload] at hid
      cases hid
      exact ⟨hrec, hruns⟩
  | disconnect =>
    intro s es r s' _ _ _ id hid
    rw [hsnoc] at hid
    cases hid
  | status =>
    refine (hreads rfl).mono (fun _ hs => hs) fun r h hh id hid => hh id ?_
    rw [hsnoc] at hid
    exact hid
  | supervisorStatus =>
    refine (hreads rfl).mono (fun _ hs => hs) fun r h hh id hid => hh id ?_
    rw [hsnoc] at hid
    exact hid

/-- The event is not the exit of the core. -/
def spares : (calls lib api).Action → Bool
  | .event e => e.spares
  | _ => true

/-- Calls that write do not overlap others, and the core does not exit on its own. -/
def Undying (p : Service.Pool Host (HandleOp lib api) HandleOp.Res HandleFn (Returned api) HostEvent)
    (a : (calls lib api).Action) : Prop :=
  (calls lib api).Unmixed HandleFn.writes p a ∧ spares a = true

instance : ∀ (p : Service.Pool Host (HandleOp lib api) HandleOp.Res HandleFn (Returned api) HostEvent)
    (a : (calls lib api).Action), Decidable (Undying p a) :=
  fun _ _ => inferInstanceAs (Decidable (_ ∧ _))

namespace Trial

/-- A connect, and a status call under which the control session is lost. -/
def sessionLost : List (calls crates noPeers).Action :=
  [.invoke (.connect (some []))] ++ performs 0 5 ++ [.finish 0, .invoke .supervisorStatus] ++
    performs 1 2 ++ [.event .lost] ++ performs 1 1 ++ [.finish 1]

end Trial

end EasyTierMac.Bridge
