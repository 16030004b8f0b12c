import EasyTierMac.Bridge.InFlight
import EasyTierMac.Bridge.Runs

/-!
# Requests and their callers

`dispatch` stops waiting after twenty seconds, but the request it has sent stays in the
channel, which is read in a session only. So a `start` that was reported as timed out
is written to the socket once the client has connected (`start_after_timeout`).

As long as a caller gives up only when its command has been written, every request in the
channel has a caller that waits for it. A call that has returned has left nothing behind
then, and nothing is written for it in any later step (`request_dies_with_caller`).
-/

namespace EasyTierMac.Bridge

open Transition (System)

variable {env : ClientEnv} {s s' : Client}

/-- No caller gives up on a request that is in the channel or being written. -/
def NoneAbandoned (s : Client) (a : Action) : Prop := ∀ r ∈ s.queued, a ≠ .timeout r.id

instance : ∀ s a, Decidable (NoneAbandoned s a) := fun s a =>
  inferInstanceAs (Decidable (∀ r ∈ s.queued, a ≠ .timeout r.id))

/-- The commands written for a request. -/
def Client.commands (s : Client) (id : ReqId) : List Cmd :=
  (s.written.filter fun w => w.1 == id).map Prod.snd

/-! ## Requests that are waited for -/

/-- Every request in the channel has a caller that waits. -/
def Awaited (s : Client) : Prop := ∀ r ∈ s.queued, ∃ deadline, (s.callers r.id).pc = .waiting deadline

theorem Awaited.step (hA : Awaited s) (hI : InFlight s) {a : Action} (hp : NoneAbandoned s a)
    (h : Move env s a s') : Awaited s' := by
  intro r hr
  rcases h.queued_cases hr with hr | ⟨-, hwait⟩
  · have hin : r ∈ s.inflight := List.mem_append_right _ hr
    rcases h.caller_cases r.id with heq | ⟨hid, -⟩ | ⟨hpc, -⟩ | ⟨deadline, reply, -, -, hslot⟩
    · rw [heq]
      exact hA r hr
    · exact absurd hid (Nat.ne_of_lt (hI.known r hin))
    · exact absurd hpc (hI.sent r hin)
    · -- the sender of a request in the channel is unused, and nobody gives up on it
      rcases hslot with hslot | hslot | rfl
      · exact absurd (hslot.symm.trans (hI.slot r hin)) Slot.noConfusion
      · exact absurd (hslot.symm.trans (hI.slot r hin)) Slot.noConfusion
      · exact absurd rfl (hp r hr)
  · exact hwait

theorem awaited_of_reachable (h : (client env).ReachableBy NoneAbandoned s) : Awaited s := by
  refine h.invariant (fun r hr => absurd hr List.not_mem_nil) ?_
  intro s a s' hr hA hp hs
  exact hA.step (.of_reachable hr) hp (step_move hs)

/-! ## Calls that have returned -/

/-- The call has returned, and its request is neither in the channel nor being written. -/
structure Over (s : Client) (id : ReqId) (reply : Reply) : Prop where
  returned : (s.callers id).pc = .returned reply
  gone : id ∉ s.queued.map Request.id

/-- A call that is over stays so, and nothing is written for it. -/
theorem Over.step {id : ReqId} {reply : Reply} (hO : Over s id reply) (hI : InFlight s) {a : Action}
    (h : Move env s a s') : Over s' id reply ∧ s'.commands id = s.commands id := by
  have hret := hO.returned
  refine ⟨⟨?_, ?_⟩, ?_⟩
  · rcases h.caller_cases id with heq | ⟨hid, -⟩ | ⟨hpc, -⟩ | ⟨deadline, r, hpc, -⟩
    · rw [heq, hret]
    · have habs := hI.fresh id (Nat.le_of_eq hid.symm)
      exact absurd (hret.symm.trans habs) CallerPc.noConfusion
    · exact absurd (hret.symm.trans hpc) CallerPc.noConfusion
    · exact absurd (hret.symm.trans hpc) CallerPc.noConfusion
  · intro hmem
    obtain ⟨r, hr, rfl⟩ := List.mem_map.mp hmem
    rcases h.queued_cases hr with hr | ⟨hpc, -⟩
    · exact hO.gone (List.mem_map_of_mem hr)
    · exact absurd (hret.symm.trans hpc) CallerPc.noConfusion
  · unfold Client.commands
    rcases h.written_cases with heq | ⟨req, hreq, heq⟩
    · rw [heq]
    · have hne : req.id ≠ id := fun he => hO.gone (he ▸ List.mem_map_of_mem hreq)
      simp [heq, List.filter_append, hne]

theorem Over.path {P : Client → Action → Prop} {id : ReqId} {reply : Reply} (hO : Over s id reply)
    (hs : (client env).Reachable s) (h : (client env).PathBy P s s') :
    Over s' id reply ∧ s'.commands id = s.commands id := by
  have hs : (client env).ReachableBy (fun _ _ => True) s := hs
  have h : (client env).PathBy (fun _ _ => True) s s' := h.mono fun _ _ _ => trivial
  refine System.PathBy.invariant (I := fun s' => Over s' id reply ∧ s'.commands id = s.commands id)
    hs ⟨hO, rfl⟩ ?_ h
  intro s₁ a s₂ hr hI _ hst
  obtain ⟨hO₂, hcmd⟩ := hI.1.step (.of_reachable hr) (step_move hst)
  exact ⟨hO₂, hcmd.trans hI.2⟩

/-- **A request dies with its caller**, as long as no caller gives up on a request before
its command has been written. A call that has returned has no request in the channel, and
whatever happens next, nothing more is written for it. Every request in the channel has a
caller that waits for it. -/
theorem request_dies_with_caller (h : (client env).ReachableBy NoneAbandoned s) :
    (∀ id reply, (s.callers id).pc = .returned reply →
      id ∉ s.queue.map Request.id ∧
        ∀ s', (client env).PathBy (fun _ _ => True) s s' →
          id ∉ s'.queue.map Request.id ∧ s'.commands id = s.commands id) ∧
      ∀ r ∈ s.queue, ∃ deadline, (s.callers r.id).pc = .waiting deadline := by
  have hA := awaited_of_reachable h
  have hqueue : ∀ {s : Client} {id}, id ∉ s.queued.map Request.id → id ∉ s.queue.map Request.id := by
    intro s id hid hmem
    obtain ⟨r, hr, rfl⟩ := List.mem_map.mp hmem
    exact hid (List.mem_map_of_mem (List.mem_append_right _ hr))
  refine ⟨fun id reply hret => ?_, fun r hr => hA r (List.mem_append_right _ hr)⟩
  have hO : Over s id reply := by
    refine ⟨hret, fun hmem => ?_⟩
    obtain ⟨r, hr, rfl⟩ := List.mem_map.mp hmem
    obtain ⟨deadline, hwait⟩ := hA r hr
    exact absurd (hret.symm.trans hwait) CallerPc.noConfusion
  refine ⟨hqueue hO.gone, fun s' hpath => ?_⟩
  obtain ⟨hO', hcmd⟩ := hO.path h.reachable hpath
  exact ⟨hqueue hO'.gone, hcmd⟩

namespace Trial

/-- A `start` that is not answered within twenty seconds, because the client has no session. -/
def startTimesOut : List Action :=
  [.call .start, .send 0, .tick REQUEST_TIMEOUT, .timeout 0]

/-- A `start` that is not answered within twenty seconds by the supervisor. -/
def startUnanswered : List Action :=
  [connected, [.call .start, .send 0, .recv, .wrote .ok, .tick REQUEST_TIMEOUT, .timeout 0]].flatten

end Trial

/-- The caller of `start` was told that it timed out; the client connects later, and sends
`start` to the supervisor. -/
theorem start_after_timeout : ∃ s s', (client Trial.env).Reachable s ∧
    (client Trial.env).PathBy (fun _ _ => True) s s' ∧
    (s.callers 0).pc = .returned (.error "supervisor request timed out") ∧
    0 ∈ s.queue.map Request.id ∧ s.commands 0 = [] ∧ s'.commands 0 = [.start] := by
  obtain ⟨s, s', hs, hpath, hp⟩ := exists_reachable_path Trial.env Trial.startTimesOut
    (Trial.connected ++ [.recv, .wrote .ok])
    (fun s s' => decide ((s.callers 0).pc = .returned (.error "supervisor request timed out") ∧
      0 ∈ s.queue.map Request.id ∧ s.commands 0 = [] ∧ s'.commands 0 = [.start])) (by decide +kernel)
  exact ⟨s, s', hs, hpath, of_decide_eq_true hp⟩

theorem request_dies_with_caller_unanswered : ∃ s, (client Trial.env).ReachableBy NoneAbandoned s ∧
    (s.callers 0).pc = .returned (.error "supervisor request timed out") ∧ s.commands 0 = [.start] ∧
    0 ∉ s.queue.map Request.id := by
  obtain ⟨s, hs, hp⟩ := exists_reachableBy Trial.env NoneAbandoned Trial.startUnanswered
    (fun s => decide ((s.callers 0).pc = .returned (.error "supervisor request timed out") ∧
      s.commands 0 = [.start])) (by decide +kernel)
  obtain ⟨hret, hcmd⟩ := of_decide_eq_true hp
  exact ⟨s, hs, hret, hcmd, ((request_dies_with_caller hs).1 0 _ hret).1⟩

end EasyTierMac.Bridge
