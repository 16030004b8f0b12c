import EasyTierMac.Bridge.Ffi
import EasyTierMac.Bridge.Runs

/-!
# What a failed connect and a disconnect leave behind

`etb_connect` starts the core before it runs the network instance, and returns at the
first error: when the instance cannot be run, the core that it has started stays, and so
does the port. `etb_disconnect` returns NULL however its `stop` request went.

The theorem says for which outcomes of the two requests the calls do what they promise.
-/

namespace EasyTierMac.Bridge

open Program (Runs All)

variable {lib : Easytier} {h h' : Host} {tr : (host lib).Trace}

/-! ## RPCs -/

/-- The operations of an RPC call. -/
def Op.IsRpc : Op lib → Prop
  | .port | .run .. | .delete .. => True
  | _ => False

/-- Nothing but the instances of the core has changed. -/
structure Kept (h h' : Host) : Prop where
  core : h'.core.isSome = h.core.isSome
  session : h'.session = h.session
  port : h'.port = h.port
  instanceId : h'.instanceId = h.instanceId

theorem Kept.refl (h : Host) : Kept h h := ⟨rfl, rfl, rfl, rfl⟩

theorem Kept.trans {h h₁ h₂ : Host} (a : Kept h h₁) (b : Kept h₁ h₂) : Kept h h₂ :=
  ⟨b.core.trans a.core, b.session.trans a.session, b.port.trans a.port,
    b.instanceId.trans a.instanceId⟩

theorem Host.modInstances_kept (h : Host) (f : List Uuid → List Uuid) : Kept h (h.modInstances f) :=
  ⟨by simp [Host.modInstances], rfl, rfl, rfl⟩

theorem Host.rpc_kept {port : UInt16} {f : List Uuid → List Uuid} {x : Called}
    {r : Except RpcError Unit} (hact : h.rpc port f x = some (r, h')) : Kept h h' := by
  cases x with
  | answered =>
    obtain ⟨-, hact⟩ := Option.ite_none_right_eq_some.mp hact
    cases hact
    exact h.modInstances_kept f
  | portal e =>
    cases hact
    exact .refl h
  | failed e done =>
    obtain ⟨-, hact⟩ := Option.ite_none_right_eq_some.mp hact
    cases hact
    cases done with
    | false => exact .refl h
    | true => exact h.modInstances_kept f

theorem Op.IsRpc.kept {o : Op lib} (ho : o.IsRpc) {x : (host lib).Outcome o} {r : o.Res}
    (hact : (host lib).act h o x = some (r, h')) : Kept h h' := by
  cases o with
  | port =>
    cases hact
    exact .refl h
  | run port id config => exact Host.rpc_kept hact
  | delete port id => exact Host.rpc_kept hact
  | _ => exact ho.elim

/-- What a call of `RpcClient` leaves alone. -/
theorem rpc_call {α : Type} {p : Call lib α} {a : α} (hp : All Op.IsRpc p)
    (hrun : Runs (host lib) p h tr a h') : Kept h h' :=
  hrun.invariant hp (fun ho hact hk => hk.trans (ho.kept hact)) (.refl h)

theorem tryRunNetworkInstance_isRpc (id : Uuid) (config : lib.NetworkConfig) :
    All Op.IsRpc (tryRunNetworkInstance id config) := by
  refine ⟨trivial, fun port => ?_⟩
  cases port with
  | none => trivial
  | some port =>
    refine ⟨trivial, fun r => ?_⟩
    cases r with
    | error e => trivial
    | ok u => trivial

theorem runAttempts_isRpc (id : Uuid) (config : lib.NetworkConfig) (left : Nat) (lastErr : String) :
    All Op.IsRpc (runAttempts id config left lastErr) := by
  induction left generalizing lastErr with
  | zero => trivial
  | succ left ih =>
    refine (tryRunNetworkInstance_isRpc id config).bind fun r => ?_
    cases r with
    | error e => exact ih e
    | ok u => trivial

theorem runNetworkInstance_isRpc (toml : Rust.Text) : All Op.IsRpc (runNetworkInstance lib toml) := by
  unfold runNetworkInstance
  split
  · trivial
  · exact runAttempts_isRpc _ _ _ _

theorem deleteRecorded_isRpc (id : Option Uuid) : All (@Op.IsRpc lib) (deleteRecorded id) := by
  cases id with
  | none => trivial
  | some id =>
    refine ⟨trivial, fun port => ?_⟩
    cases port with
    | none => trivial
    | some port =>
      refine All.bind (p := deleteNetworkInstance id) ⟨trivial, fun port => ?_⟩ fun _ => trivial
      cases port with
      | none => trivial
      | some port =>
        refine ⟨trivial, fun r => ?_⟩
        cases r with
        | error e => trivial
        | ok u => trivial

/-! ## `etb_connect` -/

/-- The core, the port and the recorded instance are as before. -/
structure Restored (h h' : Host) : Prop where
  core : h'.core.isSome = h.core.isSome
  port : h'.port = h.port
  instanceId : h'.instanceId = h.instanceId

/-- The `start` request of a connect that fails changes nothing: it is not carried out, or
the core was running, and the bridge knew its port. -/
def Undisturbed (h : Host) : Asked StartInfo → Prop
  | .answered _ => ∃ c, h.core = some c ∧ h.port = some c.rpcPort
  | .refused _ => True
  | .unanswered _ _ => h.core.isSome = true
  | .dropped _ => h.core = none

/-- The rest of a connect that fails after its `start` has been answered: the port is set,
and the instance is not run. -/
theorem connect_after_start {toml : Rust.Text} {port : UInt16} {e : String}
    (hrun : Runs (host lib) (.op (.setPort (some port)) fun _ => do
      match ← runNetworkInstance lib toml with
      | .error e => return .error e
      | .ok id => Program.op (.setInstance (some id)) fun _ => .ret (.ok ())) h tr
      (.error e : Except String Unit) h') :
    (∀ y, ⟨.start, y⟩ ∉ tr) ∧ Kept { h with port := some port } h' := by
  obtain ⟨x, r, h₁, tr₁, rfl, hact, hrun⟩ := Program.runs_op.mp hrun
  cases hact
  obtain ⟨res, h₂, tr₂, tr₃, rfl, hrpc, hrest⟩ := Program.runs_bind.mp hrun
  have hkept := rpc_call (runNetworkInstance_isRpc toml) hrpc
  have hops := hrpc.all_trace (runNetworkInstance_isRpc toml)
  cases res with
  | error e' =>
    obtain ⟨rfl, -, rfl⟩ := Program.runs_ret.mp hrest
    refine ⟨fun y hy => ?_, hkept⟩
    rw [List.append_nil] at hy
    rcases List.mem_cons.mp hy with heq | hy
    · cases heq
    · exact (hops _ hy).elim
  | ok id =>
    obtain ⟨x, r, h₃, tr₄, rfl, -, hlast⟩ := Program.runs_op.mp hrest
    cases (Program.runs_ret.mp hlast).2.1

/-- What a connect that fails has done: its `start` request decides it. -/
theorem connectNetwork_error {toml : Rust.Text} {e : String}
    (hrun : Runs (host lib) (connectNetwork lib toml) h tr (.error e) h') :
    ∃ x tr', tr = ⟨.start, x⟩ :: tr' ∧ (∀ y, ⟨.start, y⟩ ∉ tr') ∧
      (Restored h h' ↔ Undisturbed h x) := by
  obtain ⟨x, r, h₁, tr₁, rfl, hact, hrun⟩ := Program.runs_op.mp hrun
  refine ⟨x, tr₁, rfl, ?_⟩
  cases x with
  | answered info =>
    cases hact
    obtain ⟨hno, hkept⟩ := connect_after_start hrun
    refine ⟨hno, ⟨fun hres => ?_, fun hun => ?_⟩⟩
    · have hsome : h.core.isSome = true := by
        rw [← hres.core, hkept.core]
        exact h.startCore_core info
      obtain ⟨c, hcore⟩ := Option.isSome_iff_exists.mp hsome
      refine ⟨c, hcore, ?_⟩
      rw [← hres.port, hkept.port]
      exact congrArg some (Host.startCore_running hcore info)
    · obtain ⟨c, hcore, hport⟩ := hun
      refine ⟨?_, ?_, ?_⟩
      · rw [hkept.core, hcore]
        exact h.startCore_core info
      · rw [hkept.port, hport]
        exact congrArg some (Host.startCore_running hcore info)
      · rw [hkept.instanceId]
        exact h.startCore_instanceId info
  | refused e' =>
    cases hact
    obtain ⟨rfl, -, rfl⟩ := Program.runs_ret.mp hrun
    exact ⟨fun _ => List.not_mem_nil, fun _ => trivial, fun _ => ⟨rfl, rfl, rfl⟩⟩
  -- the core was started, and nobody has recorded its port
  | unanswered e' info =>
    cases hact
    obtain ⟨rfl, -, rfl⟩ := Program.runs_ret.mp hrun
    refine ⟨fun _ => List.not_mem_nil, fun hres => ?_, fun hun => ?_⟩
    · exact hres.core.symm.trans (h.startCore_core info)
    · exact ⟨(h.startCore_core info).trans hun.symm, h.startCore_port info,
        h.startCore_instanceId info⟩
  | dropped e' =>
    cases hact
    obtain ⟨rfl, -, rfl⟩ := Program.runs_ret.mp hrun
    refine ⟨fun _ => List.not_mem_nil, fun hres => ?_, fun hun => ⟨?_, rfl, rfl⟩⟩
    · exact Option.isSome_eq_false_iff.mp hres.core.symm |> Option.isNone_iff_eq_none.mp
    · rw [show h.core = none from hun]
      rfl

/-! ## `etb_disconnect` -/

/-- The supervisor has confirmed that the core is stopped. -/
structure StopConfirmed (tr : (host lib).Trace) (h' : Host) : Prop where
  answered : ∃ info, ⟨.stop, .answered info⟩ ∈ tr
  core : h'.core = none

/-- The `stop` request of a disconnect is answered, or the control session is down. -/
def Confirmed (h : Host) : Asked Unit → Prop
  | .answered _ => True
  | .refused _ => h.session = false
  | .unanswered _ _ => False
  | .dropped _ => True

theorem disconnectNetwork_run {u : Unit} (hrun : Runs (host lib) (disconnectNetwork lib) h tr u h') :
    ∃ x, ⟨.stop, x⟩ ∈ tr ∧ (∀ y, ⟨.stop, y⟩ ∈ tr → y = x) ∧
      ((h'.session = true → StopConfirmed tr h') ↔ Confirmed h x) := by
  obtain ⟨x₀, id, h₁, tr₁, rfl, hact, hrun⟩ := Program.runs_op.mp hrun
  cases hact
  obtain ⟨u₁, h₂, tr₂, tr₃, rfl, hdel, hrun⟩ := Program.runs_bind.mp hrun
  have hkept := rpc_call (deleteRecorded_isRpc h.instanceId) hdel
  have hops := hdel.all_trace (deleteRecorded_isRpc h.instanceId)
  obtain ⟨x, r, h₃, tr₄, rfl, hact, hrun⟩ := Program.runs_op.mp hrun
  obtain ⟨x₁, u₂, h₄, tr₅, rfl, hset, hrun⟩ := Program.runs_op.mp hrun
  obtain ⟨rfl, -, rfl⟩ := Program.runs_ret.mp hrun
  cases hset
  -- there is one `stop` request in the trace
  have hmem : ∀ y, (⟨.stop, y⟩ : Σ o, (host lib).Outcome o) ∈
      (⟨.takeInstance, x₀⟩ : Σ o, (host lib).Outcome o) :: (tr₂ ++ [⟨.stop, x⟩, ⟨.setPort none, x₁⟩]) →
      y = x := by
    intro y hy
    simp only [List.mem_cons, List.mem_append, List.not_mem_nil, or_false] at hy
    rcases hy with hy | hy | hy | hy
    · cases hy
    · exact (hops _ hy).elim
    · cases hy
      rfl
    · cases hy
  refine ⟨x, by simp, hmem, ?_⟩
  cases x with
  | answered info =>
    cases hact
    exact ⟨fun _ => trivial, fun _ _ => ⟨⟨info, by simp⟩, rfl⟩⟩
  | refused e =>
    cases hact
    have hsession : h₂.session = h.session := hkept.session
    refine ⟨fun hconf => ?_, fun hdown hup => ?_⟩
    · refine eq_false_of_ne_true fun hup => ?_
      obtain ⟨info, hans⟩ := (hconf (hsession.trans hup)).answered
      cases hmem _ hans
    · exact absurd (hup.symm.trans (hsession.trans hdown)) (by simp)
  | unanswered e info =>
    cases hact
    refine ⟨fun hconf => ?_, fun hno => hno.elim⟩
    obtain ⟨info', hans⟩ := (hconf rfl).answered
    cases hmem _ hans
  -- the control session is down afterwards
  | dropped e =>
    cases hact
    exact ⟨fun _ => trivial, fun _ hs => nomatch hs⟩

/-! ## What the calls promise -/

/-- **A connect that fails leaves the core, the port and the recorded instance as they
were** exactly if its `start` request changes nothing; and **a disconnect that succeeds
with the control session up has the core's end confirmed** exactly if its `stop` request
is answered. Whatever happens to the requests and RPCs on the way. -/
theorem leaves_nothing_running_iff (lib : Easytier) :
    (∀ handle toml h tr e h', Runs (host lib) (etbConnect lib handle toml) h tr (some e) h' →
      (Restored h h' ↔ ∀ x, ⟨.start, x⟩ ∈ tr → Undisturbed h x)) ∧
    ∀ handle h tr h', Runs (host lib) (etbDisconnect lib handle) h tr none h' →
      ((h'.session = true → StopConfirmed tr h') ↔ ∀ x, ⟨.stop, x⟩ ∈ tr → Confirmed h x) := by
  constructor
  · intro handle toml h tr e h' hrun
    cases handle with
    | null =>
      obtain ⟨rfl, -, rfl⟩ := Program.runs_ret.mp hrun
      exact ⟨fun _ _ hx => absurd hx List.not_mem_nil, fun _ => ⟨rfl, rfl, rfl⟩⟩
    | valid =>
      cases toml with
      | none =>
        obtain ⟨rfl, -, rfl⟩ := Program.runs_ret.mp hrun
        exact ⟨fun _ _ hx => absurd hx List.not_mem_nil, fun _ => ⟨rfl, rfl, rfl⟩⟩
      | some toml =>
        obtain ⟨res, h₁, tr₁, tr₂, rfl, hrun, hret⟩ := Program.runs_bind.mp hrun
        obtain ⟨rfl, hres, rfl⟩ := Program.runs_ret.mp hret
        cases res with
        | ok u => cases hres
        | error e' =>
          obtain ⟨x, tr', rfl, hno, hiff⟩ := connectNetwork_error hrun
          rw [hiff]
          constructor
          · intro hun y hy
            rw [List.append_nil] at hy
            rcases List.mem_cons.mp hy with heq | hy
            · cases heq
              exact hun
            · exact absurd hy (hno y)
          · intro hall
            exact hall x List.mem_cons_self
  · intro handle h tr h' hrun
    cases handle with
    | null =>
      obtain ⟨-, hres, -⟩ := Program.runs_ret.mp hrun
      cases hres
    | valid =>
      obtain ⟨res, h₁, tr₁, tr₂, rfl, hrun, hret⟩ := Program.runs_bind.mp hrun
      obtain ⟨rfl, -, rfl⟩ := Program.runs_ret.mp hret
      obtain ⟨x, hx, hone, hiff⟩ := disconnectNetwork_run hrun
      rw [List.append_nil, hiff]
      constructor
      · intro hconf y hy
        rw [hone y hy]
        exact hconf
      · intro hall
        exact hall x hx

/-- The supervisor starts the core, and then the configuration turns out to be invalid: the
connect fails, and the core runs. A disconnect whose `stop` times out returns NULL, and the
core runs too. -/
theorem core_left_running :
    (∃ tr e h', Runs (host Trial.easytier) (etbConnect Trial.easytier .valid (some ['['])) {} tr
      (some e) h' ∧ h'.core.isSome = true ∧ h'.port = some 15888) ∧
    ∃ h tr h', Runs (host Trial.easytier) (etbDisconnect Trial.easytier .valid) h tr none h' ∧
      h'.session = true ∧ h'.core.isSome = true := by
  constructor
  · exact ⟨[⟨.start, .answered ⟨7, 15888⟩⟩, ⟨.setPort (some 15888), ()⟩], _, _,
      .op rfl (.op rfl .ret), rfl, rfl⟩
  · exact ⟨{ core := some { pid := 7, rpcPort := 15888 }, session := true },
      [⟨.takeInstance, ()⟩, ⟨.stop, .refused "supervisor request timed out"⟩, ⟨.setPort none, ()⟩],
      _, .op rfl (.op rfl (.op rfl .ret)), rfl, rfl⟩

/-- The core runs already when a connect fails, and a disconnect is answered. -/
theorem leaves_nothing_running_idle :
    (∃ tr e h', Runs (host Trial.easytier) (etbConnect Trial.easytier .valid (some ['[']))
      { core := some { pid := 7, rpcPort := 15888 }, session := true, port := some 15888 } tr
      (some e) h' ∧ h'.port = some 15888) ∧
    ∃ tr h', Runs (host Trial.easytier) (etbDisconnect Trial.easytier .valid)
      { core := some { pid := 7, rpcPort := 15888 }, session := true } tr none h' ∧
      StopConfirmed tr h' := by
  constructor
  · have hrun : Runs (host Trial.easytier) (etbConnect Trial.easytier .valid (some ['[']))
        { core := some { pid := 7, rpcPort := 15888 }, session := true, port := some 15888 }
        [⟨.start, .answered ⟨8, 15889⟩⟩, ⟨.setPort (some 15888), ()⟩] _ _ := .op rfl (.op rfl .ret)
    have hiff := (leaves_nothing_running_iff Trial.easytier).1 _ _ _ _ _ _ hrun
    refine ⟨_, _, _, hrun, (hiff.mpr fun x hx => ?_).port⟩
    simp only [List.mem_cons, List.not_mem_nil, or_false] at hx
    rcases hx with hx | hx
    · cases hx
      exact ⟨_, rfl, rfl⟩
    · cases hx
  · have hrun : Runs (host Trial.easytier) (etbDisconnect Trial.easytier .valid)
        { core := some { pid := 7, rpcPort := 15888 }, session := true }
        [⟨.takeInstance, ()⟩, ⟨.stop, .answered ()⟩, ⟨.setPort none, ()⟩] none _ :=
      .op rfl (.op rfl (.op rfl .ret))
    have hiff := (leaves_nothing_running_iff Trial.easytier).2 _ _ _ _ hrun
    refine ⟨_, _, hrun, hiff.mpr (fun x hx => ?_) rfl⟩
    simp only [List.mem_cons, List.not_mem_nil, or_false] at hx
    rcases hx with hx | hx | hx
    · cases hx
    · cases hx
      trivial
    · cases hx

end EasyTierMac.Bridge
