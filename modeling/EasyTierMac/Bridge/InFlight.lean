import EasyTierMac.Bridge.Moves
import Mathlib.Data.List.Nodup

/-!
# Where the requests are

A request is moved: from its caller into the channel, from there into the session, and
there it is completed or dropped. `inflight` lists the requests that are still somewhere,
and with each of them its oneshot sender. No request is in two places, and none has been
completed (`InFlight`); so a caller gets one result at most.
-/

namespace EasyTierMac.Bridge

variable {env : ClientEnv} {s s' : Client}

/-! ## The requests that are somewhere -/

/-- The request whose command is being written. -/
def DriverPc.request : DriverPc → List Request
  | .writing req => [req]
  | _ => []

/-- Requests whose command has not been written yet. -/
def Client.queued (s : Client) : List Request := s.driver.request ++ s.queue

/-- Requests that have not been completed or dropped. -/
def Client.inflight (s : Client) : List Request := s.pending.toList ++ s.queued

/-- Every request is in one place, with its sender unused. -/
structure InFlight (s : Client) : Prop where
  nodup : (s.inflight.map Request.id).Nodup
  known : ∀ r ∈ s.inflight, r.id < s.nCalls
  sent : ∀ r ∈ s.inflight, (s.callers r.id).pc ≠ .sending
  slot : ∀ r ∈ s.inflight, (s.callers r.id).slot = .empty
  unsent : ∀ id, (s.callers id).pc = .sending → (s.callers id).slot = .empty
  /-- Calls that have not been made have no caller. -/
  fresh : ∀ id, s.nCalls ≤ id → (s.callers id).pc = .absent
  /-- Only a session that writes no command has a request in flight. -/
  pending : s.driver ≠ .session → s.pending = none

/-! ## Senders that are used -/

theorem Client.setSlot_callers (s : Client) (req : Request) (slot : Slot) {id : ReqId}
    (hid : id ∉ [req].map Request.id) : (s.setSlot req slot).callers id = s.callers id := by
  have hne : id ≠ req.id := fun he => hid (he ▸ List.mem_cons_self)
  simp [hne]

theorem Client.dropAll_callers (reqs : List Request) (s : Client) {id : ReqId}
    (hid : id ∉ reqs.map Request.id) : (Client.dropAll reqs s).callers id = s.callers id := by
  induction reqs generalizing s with
  | nil => rfl
  | cons req reqs ih =>
    rw [List.map_cons, List.mem_cons, not_or] at hid
    refine (ih (s.setSlot req .dropped) hid.2).trans ?_
    exact s.setSlot_callers req .dropped (by simpa using hid.1)

theorem Client.dropAll_pc (reqs : List Request) (s : Client) (id : ReqId) :
    ((Client.dropAll reqs s).callers id).pc = (s.callers id).pc := by
  induction reqs generalizing s with
  | nil => rfl
  | cons req reqs ih => exact (ih (s.setSlot req .dropped)).trans (s.setSlot_pc req .dropped id)

/-- What `dispatch_event` does with the request in flight: it keeps it or completes it. -/
theorem dispatchEvent_cases (ev : Event) (pending : Option Request) :
    (dispatchEvent ev pending).pending = pending ∧ (dispatchEvent ev pending).reply = none ∨
      ∃ req r, pending = some req ∧ (dispatchEvent ev pending).pending = none ∧
        (dispatchEvent ev pending).reply = some (req, r) := by
  cases pending with
  | none => cases ev <;> exact .inl ⟨rfl, rfl⟩
  | some req => cases ev <;> first
      | exact .inl ⟨rfl, rfl⟩
      | exact .inr ⟨req, _, rfl, rfl, rfl⟩

namespace InFlight

theorem init : InFlight (.init env) where
  nodup := List.nodup_nil
  known _ h := absurd h List.not_mem_nil
  sent _ h := absurd h List.not_mem_nil
  slot _ h := absurd h List.not_mem_nil
  unsent _ h := nomatch h
  fresh _ _ := rfl
  pending _ := rfl

/-- Some requests go, and the others' callers stay as they are. -/
theorem narrow (hI : InFlight s) (hnd : (s'.inflight.map Request.id).Nodup)
    (hsub : s'.inflight ⊆ s.inflight)
    (hcall : ∀ r ∈ s'.inflight, s'.callers r.id = s.callers r.id)
    (hsend : ∀ id, (s.callers id).pc = .sending → s'.callers id = s.callers id)
    (hpc : ∀ id, (s'.callers id).pc = (s.callers id).pc) (hn : s'.nCalls = s.nCalls)
    (hpend : s'.driver ≠ .session → s'.pending = none) : InFlight s' where
  nodup := hnd
  known r hr := hn ▸ hI.known r (hsub hr)
  sent r hr := by
    rw [hcall r hr]
    exact hI.sent r (hsub hr)
  slot r hr := by
    rw [hcall r hr]
    exact hI.slot r (hsub hr)
  unsent id hid := by
    rw [hpc] at hid
    rw [hsend id hid]
    exact hI.unsent id hid
  fresh id hid := by
    rw [hpc]
    exact hI.fresh id (hn ▸ hid)
  pending := hpend

/-- Nothing happens to the requests and their callers. -/
theorem keep (hI : InFlight s) (hin : s'.inflight = s.inflight) (hcall : s'.callers = s.callers)
    (hn : s'.nCalls = s.nCalls) (hpend : s'.driver ≠ .session → s'.pending = none) :
    InFlight s' :=
  hI.narrow (hin ▸ hI.nodup) (hin ▸ List.Subset.refl _) (fun r _ => by rw [hcall])
    (fun id _ => by rw [hcall]) (fun id => by rw [hcall]) hn hpend

/-- The senders of some requests are used, and these requests are gone. -/
theorem finish (hI : InFlight s) (reqs : List Request)
    (hin : s.inflight.Perm (reqs ++ s'.inflight)) (hcall : ∀ id, id ∉ reqs.map Request.id →
      s'.callers id = s.callers id) (hpc : ∀ id, (s'.callers id).pc = (s.callers id).pc)
    (hn : s'.nCalls = s.nCalls) (hpend : s'.driver ≠ .session → s'.pending = none) :
    InFlight s' := by
  have hnd := (hin.map Request.id).nodup_iff.mp hI.nodup
  rw [List.map_append, List.nodup_append] at hnd
  refine hI.narrow hnd.2.1 (fun r hr => hin.symm.subset (List.mem_append_right _ hr))
    (fun r hr => hcall r.id ?_) (fun id hid => hcall id ?_) hpc hn hpend
  · intro hmem
    exact hnd.2.2 _ hmem _ (List.mem_map_of_mem hr) rfl
  · intro hmem
    obtain ⟨r, hr, rfl⟩ := List.mem_map.mp hmem
    exact hI.sent r (hin.symm.subset (List.mem_append_left _ hr)) hid

/-- A caller that has nothing in flight moves. -/
theorem setCaller (hI : InFlight s) {id : ReqId} {pc : CallerPc} (hid : id < s.nCalls)
    (hpc : pc ≠ .sending) : InFlight (s.setCaller id pc) where
  nodup := hI.nodup
  known := hI.known
  sent r hr := by
    by_cases he : r.id = id
    · simpa [he] using hpc
    · simpa [he] using hI.sent r hr
  slot r hr := by
    have hslot := hI.slot r hr
    by_cases he : r.id = id
    · rw [he] at hslot
      simpa [he] using hslot
    · simpa [he] using hslot
  unsent k hk := by
    by_cases he : k = id
    · exact absurd (by simpa [he] using hk) hpc
    · simpa [he] using hI.unsent k (by simpa [he] using hk)
  fresh k hk := by
    have hne : k ≠ id := Nat.ne_of_gt (Nat.lt_of_lt_of_le hid hk)
    simpa [hne] using hI.fresh k hk
  pending := hI.pending

/-! ## Every step -/

/-- The session ends: the request in flight is dropped. -/
theorem leaveSession (hI : InFlight s) : InFlight s.leaveSession := by
  refine hI.finish s.pending.toList ?_ (fun id hid => ?_) (fun id => ?_) ?_ fun _ => rfl
  · unfold Client.inflight Client.queued
    simp
  · simpa using Client.dropAll_callers s.pending.toList s hid
  · simpa using Client.dropAll_pc s.pending.toList s id
  · simp

/-- The driver returns: the requests in the channel are dropped. -/
theorem stop (hI : InFlight s) (hpend : s.pending = none) (hd : s.driver.request = []) :
    InFlight s.stop := by
  have hpend' : s.stop.pending = none := by simp [hpend]
  refine hI.finish s.queue ?_ (fun id hid => ?_) (fun id => ?_) (by simp) fun _ => hpend'
  · have hin' : s.stop.inflight = [] := by
      unfold Client.inflight Client.queued
      rw [hpend']
      simp [DriverPc.request]
    rw [hin', List.append_nil]
    unfold Client.inflight Client.queued
    rw [hpend, hd]
    rfl
  · exact Client.dropAll_callers s.queue _ hid
  · exact Client.dropAll_pc s.queue _ id

/-- An attempt or a session begins or ends with no request in flight. -/
theorem move (hI : InFlight s) (hin : s'.queued = s.queued) (hpend : s.pending = none)
    (hpend' : s'.pending = none) (hcall : s'.callers = s.callers) (hn : s'.nCalls = s.nCalls) :
    InFlight s' := by
  refine hI.keep ?_ hcall hn fun _ => hpend'
  unfold Client.inflight
  rw [hin, hpend, hpend']

theorem disconnected (hI : InFlight s) (hd : s.driver = .session) : InFlight s.disconnected := by
  have hleft := hI.leaveSession
  refine hleft.move ?_ rfl rfl rfl rfl
  simp [Client.queued, hd, DriverPc.request]

/-- A call: the new request is still with its caller. -/
theorem call (hI : InFlight s) (kind : Kind) : InFlight (s.call kind) where
  nodup := hI.nodup
  known r hr := Nat.lt_succ_of_lt (hI.known r hr)
  sent r hr := by
    have hne : r.id ≠ s.nCalls := Nat.ne_of_lt (hI.known r hr)
    simpa [hne] using hI.sent r hr
  slot r hr := by
    have hne : r.id ≠ s.nCalls := Nat.ne_of_lt (hI.known r hr)
    simpa [hne] using hI.slot r hr
  unsent id hid := by
    by_cases he : id = s.nCalls
    · simp [he]
    · simpa [he] using hI.unsent id (by simpa [he] using hid)
  fresh id hid := by
    have hne : id ≠ s.nCalls := Nat.ne_of_gt hid
    simpa [hne] using hI.fresh id (Nat.le_of_succ_le hid)
  pending := hI.pending

/-- Only a call that was made has a caller. -/
theorem lt_nCalls (hI : InFlight s) {id : ReqId} (hpc : (s.callers id).pc ≠ .absent) :
    id < s.nCalls :=
  Nat.lt_of_not_le fun hle => hpc (hI.fresh id hle)

/-- A request goes into the channel. -/
theorem send (hI : InFlight s) {id : ReqId} (hpc : (s.callers id).pc = .sending) :
    InFlight ({ s with queue := s.queue ++ [(⟨id, (s.callers id).kind⟩ : Request)] }.setCaller id
      (.waiting (s.now + REQUEST_TIMEOUT))) := by
  generalize hs' : Client.setCaller _ id _ = s'
  have hin : s'.inflight = s.inflight ++ [⟨id, (s.callers id).kind⟩] := by
    subst hs'
    simp [Client.inflight, Client.queued]
  have hcall : ∀ k, k ≠ id → s'.callers k = s.callers k := by
    intro k hk
    subst hs'
    simp [hk]
  have hwait : (s'.callers id).pc = .waiting (s.now + REQUEST_TIMEOUT) ∧
      (s'.callers id).slot = .empty := by
    subst hs'
    simpa using hI.unsent id hpc
  have hid : id < s.nCalls := hI.lt_nCalls (by simp [hpc])
  have hn : s'.nCalls = s.nCalls := by
    subst hs'
    rfl
  have hnew : id ∉ s.inflight.map Request.id := by
    intro hmem
    obtain ⟨r, hr, rfl⟩ := List.mem_map.mp hmem
    exact hI.sent r hr hpc
  -- a request in flight is an old one, whose caller stays as it is, or the new one
  have hmem : ∀ r ∈ s'.inflight, r ∈ s.inflight ∧ s'.callers r.id = s.callers r.id ∨ r.id = id := by
    intro r hr
    rw [hin, List.mem_append, List.mem_singleton] at hr
    rcases hr with hr | rfl
    · exact .inl ⟨hr, hcall _ fun he => hnew (he ▸ List.mem_map_of_mem hr)⟩
    · exact .inr rfl
  constructor
  · rw [hin, List.map_append, List.nodup_append]
    refine ⟨hI.nodup, List.nodup_singleton _, fun k hk j hj he => hnew ?_⟩
    rw [List.map_singleton, List.mem_singleton] at hj
    rwa [he, hj] at hk
  · intro r hr
    rw [hn]
    rcases hmem r hr with ⟨hr, -⟩ | he
    · exact hI.known r hr
    · exact he ▸ hid
  · intro r hr
    rcases hmem r hr with ⟨hr, he⟩ | he
    · rw [he]
      exact hI.sent r hr
    · rw [he, hwait.1]
      exact CallerPc.noConfusion
  · intro r hr
    rcases hmem r hr with ⟨hr, he⟩ | he
    · rw [he]
      exact hI.slot r hr
    · rw [he]
      exact hwait.2
  · intro k hk
    by_cases he : k = id
    · exact he ▸ hwait.2
    · rw [hcall k he] at hk ⊢
      exact hI.unsent k hk
  · intro k hk
    have hne : k ≠ id := Nat.ne_of_gt (Nat.lt_of_lt_of_le hid (hn ▸ hk))
    rw [hcall k hne]
    exact hI.fresh k (hn ▸ hk)
  · subst hs'
    exact hI.pending

/-- The session dispatches an event: it keeps the request in flight or completes it. -/
theorem dispatch (hI : InFlight s) (ev : Event) :
    InFlight (s.dispatch ev) := by
  unfold Client.dispatch Client.complete
  rcases dispatchEvent_cases ev s.pending with ⟨hp, hr⟩ | ⟨req, r, hpend, hp, hr⟩
  · dsimp only
    rw [hp, hr]
    exact hI.keep rfl rfl rfl hI.pending
  · dsimp only
    rw [hp, hr]
    refine hI.finish [req] ?_ (fun id hid => ?_) (fun id => ?_) rfl fun _ => rfl
    · unfold Client.inflight Client.queued
      simp [hpend]
    · exact s.setSlot_callers req _ hid
    · exact s.setSlot_pc req _ id

/-- The session reads a line. -/
theorem sessionLine (hI : InFlight s) (hd : s.driver = .session) (l : List UInt8) :
    InFlight (s.sessionLine env l) := by
  obtain ⟨log, he | he | ⟨ev, -, he⟩⟩ := sessionLine_cases env s l
  · rw [he]
    exact disconnected (s := { s with log := log }) (hI.keep rfl rfl rfl hI.pending) hd
  · rw [he]
    exact hI.keep rfl rfl rfl hI.pending
  · rw [he]
    exact dispatch (s := { s with log := log }) (hI.keep rfl rfl rfl hI.pending) ev

theorem step (hI : InFlight s) {a : Action} (h : Move env s a s') : InFlight s' := by
  cases h with
  | call => exact hI.call _
  | refused hpc hd => exact hI.setCaller (hI.lt_nCalls (by simp [hpc])) CallerPc.noConfusion
  | send hpc hd hroom => exact hI.send hpc
  | receive hpc hslot => exact hI.setCaller (hI.lt_nCalls (by simp [hpc])) CallerPc.noConfusion
  | lost hpc hslot => exact hI.setCaller (hI.lt_nCalls (by simp [hpc])) CallerPc.noConfusion
  | timeout hpc hslot hnow => exact hI.setCaller (hI.lt_nCalls (by simp [hpc])) CallerPc.noConfusion
  | connect hd | connectErr hd | hello hd | helloErr hd | helloReadErr hd | elapse hd | takeover hd
  | reconnect hd =>
    have hpend : s.pending = none := hI.pending (by simp [hd])
    exact hI.move (by simp [Client.queued, hd, DriverPc.request]) hpend hpend rfl rfl
  | @helloLine l st hd hpoll =>
    have hpend : s.pending = none := hI.pending (by simp [hd])
    rcases helloLine_cases env (s.setStream st) l with he | ⟨v, c, p, he⟩ | ⟨o, he⟩ | ⟨c, m, he⟩
    all_goals
      rw [he]
      exact hI.move (by simp [Client.queued, hd, DriverPc.request]) hpend (by simp [hpend]) rfl rfl
  | @sessionLine l st hd hpoll =>
    have hst : InFlight (s.setStream st) := hI.keep rfl rfl rfl hI.pending
    exact hst.sessionLine hd l
  | sessionReadErr hd => exact hI.disconnected hd
  | recv hd hq hp =>
    refine hI.keep ?_ rfl rfl fun _ => hp
    simp [Client.inflight, Client.queued, hd, hq, hp, DriverPc.request]
  -- the new request is answered at once, the one that waits is left alone
  | @recvBusy req other queue hd hq hp =>
    refine hI.finish [req] ?_ (fun id hid => ?_) (fun id => ?_) rfl fun h => absurd hd h
    · simpa [Client.inflight, Client.queued, hd, hq, hp, DriverPc.request] using
        List.Perm.swap req other queue
    · exact s.setSlot_callers req _ hid
    · exact s.setSlot_pc req _ id
  | wrote hd hres =>
    have hpend : s.pending = none := hI.pending (by simp [hd])
    refine hI.keep ?_ rfl rfl fun h => absurd rfl h
    simp [Client.inflight, Client.queued, hd, hpend, DriverPc.request]
  -- the session ends, and the request that could not be written has been answered
  | @writeErr req res msg hd hres =>
    have hpend : s.pending = none := hI.pending (by simp [hd])
    refine hI.finish [req] ?_ (fun id hid => ?_) (fun id => ?_) ?_ fun _ => rfl
    · simp [Client.inflight, Client.queued, hd, hpend, DriverPc.request]
    · simpa [hpend, Client.dropAll] using s.setSlot_callers req (.filled (.error msg)) hid
    · simpa [hpend, Client.dropAll] using s.setSlot_pc req (.filled (.error msg)) id
    · simp
  | shutdown hs hd hw hd' =>
    have hpend : s.pending = none := hI.pending hd
    refine stop (s := { s with shutdown := false }) (hI.keep rfl rfl rfl fun _ => hpend) hpend ?_
    cases hpc : s.driver with
    | writing req => exact absurd hpc (hw req)
    | _ => rfl
  | shutdownSession hs hd =>
    have hleft : InFlight (Client.leaveSession { s with shutdown := false }) :=
      leaveSession (s := { s with shutdown := false }) (hI.keep rfl rfl rfl hI.pending)
    exact hleft.stop rfl (by simp [hd, DriverPc.request])
  | hold | fill | requestShutdown | requestTakeover | requestReconnect | arrive | hangup | tick =>
    exact hI.keep rfl rfl rfl hI.pending

theorem of_reachable {P : Client → Action → Prop} (h : (client env).ReachableBy P s) : InFlight s :=
  h.invariant init fun _ hI _ hs => hI.step (step_move hs)

end InFlight

/-! ## What a step does to one request -/

@[simp] theorem update_slot_pc (callers : ReqId → Caller) (k : ReqId) (slot : Slot) (id : ReqId) :
    (Function.update callers k { callers k with slot := slot } id).pc = (callers id).pc := by
  by_cases hid : id = k
  · simp [hid]
  · simp [hid]

/-- Only its own calls move a caller. -/
theorem Move.caller_eq {a : Action} (h : Move env s a s') {id : ReqId}
    (hcall : (∃ kind, a = .call kind) → id ≠ s.nCalls) (hsend : a ≠ .send id)
    (hreceive : a ≠ .receive id) (htimeout : a ≠ .timeout id) :
    (s'.callers id).pc = (s.callers id).pc := by
  cases h with
  | call => simp [hcall ⟨_, rfl⟩]
  | @refused k | @send k =>
    have hne : id ≠ k := fun he => hsend (he ▸ rfl)
    simp [hne]
  | @receive k | @lost k =>
    have hne : id ≠ k := fun he => hreceive (he ▸ rfl)
    simp [hne]
  | @timeout k =>
    have hne : id ≠ k := fun he => htimeout (he ▸ rfl)
    simp [hne]
  | @helloLine l st hd hpoll =>
    rw [(helloLine_callers env _ l).1]
    rfl
  | @sessionLine l st hd hpoll =>
    obtain ⟨log, he | he | ⟨ev, -, he⟩⟩ := sessionLine_cases env (s.setStream st) l
    · rw [he]
      simp [Client.dropAll_pc]
    · rw [he]
      rfl
    · obtain ⟨callers, pending, events, log', he', hpc⟩ := Client.dispatch_eq _ ev
      rw [he, he']
      exact hpc id
  | _ => simp [Client.dropAll_pc]

/-- How a caller moves: it is called, it sends its request or is refused, it takes what
is in its slot, or it gives up. -/
theorem Move.caller_cases {a : Action} (h : Move env s a s') (id : ReqId) :
    (s'.callers id).pc = (s.callers id).pc ∨
      (id = s.nCalls ∧ (s'.callers id).pc = .sending) ∨
      ((s.callers id).pc = .sending ∧ (s'.callers id).pc ≠ .sending) ∨
      ∃ deadline r, (s.callers id).pc = .waiting deadline ∧ (s'.callers id).pc = .returned r ∧
        ((s.callers id).slot = .filled r ∨ (s.callers id).slot = .dropped ∨ a = .timeout id) := by
  by_cases hsend : a = .send id
  · subst hsend
    cases h with
    | refused hpc hd => exact .inr (.inr (.inl ⟨hpc, by simp⟩))
    | send hpc hd hroom => exact .inr (.inr (.inl ⟨hpc, by simp⟩))
  by_cases hreceive : a = .receive id
  · subst hreceive
    cases h with
    | receive hpc hslot => exact .inr (.inr (.inr ⟨_, _, hpc, by simp, .inl hslot⟩))
    | lost hpc hslot =>
      exact .inr (.inr (.inr ⟨_, .error "supervisor disconnected before reply", hpc, by simp,
        .inr (.inl hslot)⟩))
  by_cases htimeout : a = .timeout id
  · subst htimeout
    cases h with
    | timeout hpc hslot hnow =>
      exact .inr (.inr (.inr ⟨_, .error "supervisor request timed out", hpc, by simp,
        .inr (.inr rfl)⟩))
  by_cases hcall : (∃ kind, a = .call kind) ∧ id = s.nCalls
  · obtain ⟨⟨kind, rfl⟩, hid⟩ := hcall
    cases h
    exact .inr (.inl ⟨hid, by simp [hid]⟩)
  · exact .inl (h.caller_eq (fun hk hid => hcall ⟨hk, hid⟩) hsend hreceive htimeout)

/-- Only `cmd_tx.send` puts a request into the channel. -/
theorem Move.queued_cases {a : Action} (h : Move env s a s') {r : Request} (hr : r ∈ s'.queued) :
    r ∈ s.queued ∨ (s.callers r.id).pc = .sending ∧ ∃ d, (s'.callers r.id).pc = .waiting d := by
  cases h with
  | @send id hpc hd hroom =>
    simp only [Client.queued, Client.setCaller, Client.modCaller, List.mem_append,
      List.mem_singleton] at hr ⊢
    rcases hr with hr | hr | rfl
    · exact .inl (.inl hr)
    · exact .inl (.inr hr)
    · exact .inr ⟨hpc, s.now + REQUEST_TIMEOUT, by simp⟩
  | recv hd hq hp =>
    left
    simpa [Client.queued, hd, hq, DriverPc.request] using hr
  | recvBusy hd hq hp =>
    left
    simp only [Client.queued, Client.setSlot, Client.modCaller, Client.setStream, hd,
      DriverPc.request, List.nil_append] at hr
    simp [Client.queued, hq, hr]
  | @helloLine l st hd hpoll =>
    left
    rcases helloLine_cases env (s.setStream st) l with he | ⟨v, c, p, he⟩ | ⟨o, he⟩ | ⟨c, m, he⟩
    all_goals
      rw [he] at hr
      simpa [Client.queued, hd, DriverPc.request] using hr
  | @sessionLine l st hd hpoll =>
    left
    obtain ⟨log, he | he | ⟨ev, -, he⟩⟩ := sessionLine_cases env (s.setStream st) l
    · rw [he] at hr
      simpa [Client.queued, hd, DriverPc.request] using hr
    · rw [he] at hr
      exact hr
    · obtain ⟨callers, pending, events, log', he', -⟩ := Client.dispatch_eq _ ev
      rw [he, he'] at hr
      exact hr
  | connect hd | connectErr hd | hello hd | helloErr hd | helloReadErr hd | sessionReadErr hd
  | takeover hd | reconnect hd | elapse hd =>
    left
    simpa [Client.queued, hd, DriverPc.request] using hr
  | @wrote req res hd | @writeErr req res msg hd =>
    left
    have hq : r ∈ s.queue := by simpa [Client.queued, DriverPc.request] using hr
    exact List.mem_append_right _ hq
  | shutdown | shutdownSession =>
    left
    simp [Client.queued, DriverPc.request] at hr
  | _ => exact .inl hr

/-- Only the driver writes commands, one request at a time. -/
theorem Move.written_cases {a : Action} (h : Move env s a s') :
    s'.written = s.written ∨
      ∃ req ∈ s.queued, s'.written = s.written ++ [(req.id, req.cmd)] := by
  cases h with
  | @wrote req res hd hres => exact .inr ⟨req, by simp [Client.queued, hd, DriverPc.request], rfl⟩
  | @helloLine l st hd hpoll =>
    left
    rcases helloLine_cases env (s.setStream st) l with he | ⟨v, c, p, he⟩ | ⟨o, he⟩ | ⟨c, m, he⟩
    all_goals
      rw [he]
      simp
  | @sessionLine l st hd hpoll =>
    left
    obtain ⟨log, he | he | ⟨ev, -, he⟩⟩ := sessionLine_cases env (s.setStream st) l
    · rw [he]
      simp
    · rw [he]
      rfl
    · obtain ⟨callers, pending, events, log', he', -⟩ := Client.dispatch_eq _ ev
      rw [he, he']
      rfl
  | _ =>
    left
    simp

end EasyTierMac.Bridge
