import EasyTierMac.Bridge.Ffi
import EasyTierMac.Bridge.Runs

/-!
# The port follows the core

`forward_events` sets the port from a `connected` event that has one, but a `connected`
event without a port leaves the port as it is. So after the supervisor has restarted, the
bridge still has the port of a core that is gone, and reports it as running
(`stale_port`).

The port is what the latest event about the core says, exactly if that event is not a
`connected` that is misread: one without a port while an earlier one is still set, or one
with the port of a core that it reports as stopped.
-/

namespace EasyTierMac.Bridge

open Program (Runs)

/-! ## What the events say about the core -/

/-- What an event says about the core: the port it runs on, or that there is none. -/
def SupervisorEvent.report : SupervisorEvent → Option (Option UInt16)
  | .connected _ .running port => some port
  | .connected _ .stopped _ | .coreStopped _ | .coreExited _ _ => some none
  | .coreStarted _ port => some (some port)
  | .disconnected | .kicked | .busy _ | .error _ _ => none

/-- The port that the latest event about the core reports. -/
def reported (evs : List SupervisorEvent) : Option UInt16 :=
  ((evs.filterMap SupervisorEvent.report).getLast?).join

/-- The event says something about the core. -/
def SupervisorEvent.bearsCore (ev : SupervisorEvent) : Bool := ev.report.isSome

/-- The event has a port. -/
def SupervisorEvent.hasPort : SupervisorEvent → Bool
  | .connected _ _ (some _) | .coreStarted _ _ => true
  | _ => false

/-- The core has ended. -/
def SupervisorEvent.endsCore : SupervisorEvent → Bool
  | .coreStopped _ | .coreExited _ _ => true
  | _ => false

/-- No port is set: the latest event that has a port or ends the core ends it. The events
are given latest first. -/
def NoPort (history : List SupervisorEvent) : Prop :=
  (history.find? fun ev => ev.hasPort || ev.endsCore).all (·.endsCore) = true

/-- The latest event about the core is not a `connected` that is misread: with a port it
reports a running core, and without one it comes when no port is set. The events are
given latest first. -/
def ReadsPort (history : List SupervisorEvent) : Prop :=
  match history.dropWhile (fun ev => !ev.bearsCore) with
  | .connected _ core (some _) :: _ => core = .running
  | .connected _ _ none :: before => NoPort before
  | _ => True

/-! ## The port -/

theorem foldl_forwardPort_eq_none (evs : List SupervisorEvent) :
    evs.foldl forwardPort none = none ↔ NoPort evs.reverse := by
  induction evs using List.reverseRecOn with
  | nil => simp [NoPort]
  | append_singleton evs ev ih =>
    rw [List.foldl_append, List.reverse_append]
    unfold NoPort at ih ⊢
    cases ev with
    | connected version core port =>
      cases port with
      | none => simpa [forwardPort, SupervisorEvent.hasPort, SupervisorEvent.endsCore] using ih
      | some port => simp [forwardPort, SupervisorEvent.hasPort, SupervisorEvent.endsCore]
    | coreStarted | coreStopped | coreExited =>
      simp [forwardPort, SupervisorEvent.hasPort, SupervisorEvent.endsCore]
    | _ => simpa [forwardPort, SupervisorEvent.hasPort, SupervisorEvent.endsCore] using ih

theorem reported_append (evs : List SupervisorEvent) (ev : SupervisorEvent) :
    reported (evs ++ [ev]) = ev.report.getD (reported evs) := by
  unfold reported
  rw [List.filterMap_append]
  cases hr : ev.report with
  | none => simp [hr]
  | some port => simp [hr]

theorem forwardPort_iff (evs : List SupervisorEvent) :
    evs.foldl forwardPort none = reported evs ↔ ReadsPort evs.reverse := by
  induction evs using List.reverseRecOn with
  | nil => simp [ReadsPort, reported]
  | append_singleton evs ev ih =>
    rw [List.foldl_append, List.reverse_append, reported_append]
    have hnone := foldl_forwardPort_eq_none evs
    unfold ReadsPort at ih ⊢
    cases ev with
    | connected version core port =>
      cases core <;> cases port
      all_goals simp [forwardPort, SupervisorEvent.report, SupervisorEvent.bearsCore, hnone]
    | coreStarted | coreStopped | coreExited =>
      simp [forwardPort, SupervisorEvent.report, SupervisorEvent.bearsCore]
    | _ =>
      simpa [forwardPort, SupervisorEvent.report, SupervisorEvent.bearsCore] using ih

/-- **The port follows the core**: after any events, `forward_events` has set the port that
the latest event about the core reports, exactly if it does not misread that event. Then
`etb_supervisor_status` reports the core as running only if the supervisor does. -/
theorem port_follows_core_iff (evs : List SupervisorEvent) :
    ((forwardEvents (none, []) evs).1 = reported evs ↔ ReadsPort evs.reverse) ∧
      (ReadsPort evs.reverse → ∀ lib h tr st h', h.port = (forwardEvents (none, []) evs).1 →
        Runs (host lib) (etbSupervisorStatus lib .valid) h tr st h' →
        st.coreRunning = (reported evs).isSome ∧ st.rpcPort = reported evs) := by
  have hiff : (forwardEvents (none, []) evs).1 = reported evs ↔ ReadsPort evs.reverse := by
    rw [forwardEvents_eq]
    exact forwardPort_iff evs
  refine ⟨hiff, fun hreads lib h tr st h' hport hrun => ?_⟩
  obtain ⟨x₁, r₁, h₁, tr₁, rfl, hact₁, hrun⟩ := Program.runs_op.mp hrun
  obtain ⟨x₂, r₂, h₂, tr₂, rfl, hact₂, hrun⟩ := Program.runs_op.mp hrun
  obtain ⟨x₃, r₃, h₃, tr₃, rfl, hact₃, hrun⟩ := Program.runs_op.mp hrun
  obtain ⟨-, rfl, -⟩ := Program.runs_ret.mp hrun
  cases hact₁
  have hrep : h.port = reported evs := hport.trans (hiff.mpr hreads)
  exact ⟨congrArg Option.isSome hrep, hrep⟩

namespace Trial

/-- The core runs, and then its supervisor is gone and another one is there. -/
def supervisorRestart : List SupervisorEvent :=
  [.coreStarted 7 15888, .disconnected, .connected "0.1.0" .stopped none]

/-- The core ends before the client reconnects. -/
def coreExit : List SupervisorEvent :=
  [.coreStarted 7 15888, .coreExited (some 1) none, .disconnected, .connected "0.1.0" .stopped none]

end Trial

/-- The supervisor reports that no core runs, and the port stays. -/
theorem stale_port : (forwardEvents (none, []) Trial.supervisorRestart).1 = some 15888 ∧
    reported Trial.supervisorRestart = none := by decide

theorem port_follows_core_exit :
    (forwardEvents (none, []) Trial.coreExit).1 = none ∧
      ∃ h tr st h', Runs (host Trial.easytier) (etbSupervisorStatus Trial.easytier .valid) h tr st h' ∧
        st.coreRunning = false := by
  have hreads : ReadsPort Trial.coreExit.reverse := by
    show NoPort _
    unfold NoPort
    decide
  have hrun : Runs (host Trial.easytier) (etbSupervisorStatus Trial.easytier .valid) { session := true }
      [⟨.port, ()⟩, ⟨.isConnected, ()⟩, ⟨.installed, ()⟩] _ _ := .op rfl (.op rfl (.op rfl .ret))
  have hfollows := port_follows_core_iff Trial.coreExit
  exact ⟨hfollows.1.mpr hreads, _, _, _, _, hrun,
    (hfollows.2 hreads Trial.easytier _ _ _ _ (by decide) hrun).1⟩

end EasyTierMac.Bridge
