import EasyTierMac.Bridge.SocketView

/-!
# What a caller gets

The oneshot channel of a request is used once: it is filled by the line that completes the
request, filled with an error that the client makes up itself (`LocalError`), or dropped
(`SlotMove`). A caller returns what its channel was filled with or such an error.
-/

namespace EasyTierMac.Bridge

variable {env : ClientEnv} {s s' : Client}

/-- The errors that `dispatch` and `run_session` make up. -/
inductive LocalError : String → Prop
  | stopped : LocalError "supervisor client stopped"
  | disconnected : LocalError "supervisor disconnected before reply"
  | timedOut : LocalError "supervisor request timed out"
  | inFlight : LocalError "another request is already in flight"
  | write (e : String) : LocalError ("write failed: " ++ e)
  | flush (e : String) : LocalError ("flush failed: " ++ e)

theorem Wrote.localError {res : Wrote} {msg : String} (h : res.failure = some msg) :
    LocalError msg := by
  cases res with
  | ok => cases h
  | writeErr e => cases h; exact .write e
  | flushErr e => cases h; exact .flush e

/-! ## The channel of a request -/

/-- A request that is still somewhere. -/
def Client.holds (s : Client) (id : ReqId) : Prop := ∃ r ∈ s.inflight, r.id = id

/-- What a step does to the channel of request `id`. -/
inductive SlotMove (env : ClientEnv) (s : Client) (a : Action) (id : ReqId) (slot : Slot) : Prop
  | keep (h : slot = (s.callers id).slot)
  | called (hid : id = s.nCalls) (h : slot = .empty)
  | dropped (hid : s.holds id) (h : slot = .dropped)
  | failed {msg : String} (hid : s.holds id) (made : LocalError msg)
      (h : slot = .filled (.error msg))
  | completed {l : List UInt8} {req : Request} {r : Reply} (hread : lineRead s a = some l)
      (hdone : completes env.codec s l = some (req, r)) (hid : req.id = id) (h : slot = .filled r)

theorem Client.dropAll_slot (reqs : List Request) (s : Client) (id : ReqId) :
    ((Client.dropAll reqs s).callers id).slot = (s.callers id).slot ∨
      (∃ r ∈ reqs, r.id = id) ∧ ((Client.dropAll reqs s).callers id).slot = .dropped := by
  induction reqs generalizing s with
  | nil => exact .inl rfl
  | cons req reqs ih =>
    rcases ih (s.setSlot req .dropped) with he | ⟨⟨r, hr, hid⟩, he⟩
    · by_cases hid : id = req.id
      · refine .inr ⟨⟨req, List.mem_cons_self, hid.symm⟩, he.trans ?_⟩
        simp [hid]
      · exact .inl (he.trans (by simp [hid]))
    · exact .inr ⟨⟨r, List.mem_cons_of_mem _ hr, hid⟩, he⟩

/-- The session ends: the request in flight is dropped. -/
theorem Client.leaveSession_slot (s : Client) (id : ReqId) :
    (s.leaveSession.callers id).slot = (s.callers id).slot ∨
      (∃ r ∈ s.pending.toList, r.id = id) ∧ (s.leaveSession.callers id).slot = .dropped :=
  Client.dropAll_slot s.pending.toList s id

/-- The driver returns: the requests in the channel are dropped. -/
theorem Client.stop_slot (s : Client) (id : ReqId) :
    (s.stop.callers id).slot = (s.callers id).slot ∨
      (∃ r ∈ s.queue, r.id = id) ∧ (s.stop.callers id).slot = .dropped :=
  Client.dropAll_slot s.queue _ id

theorem holds_of_pending {id : ReqId} (h : ∃ r ∈ s.pending.toList, r.id = id) : s.holds id := by
  obtain ⟨r, hr, hid⟩ := h
  exact ⟨r, List.mem_append_left _ hr, hid⟩

theorem holds_of_queue {id : ReqId} (h : ∃ r ∈ s.queue, r.id = id) : s.holds id := by
  obtain ⟨r, hr, hid⟩ := h
  exact ⟨r, List.mem_append_right _ (List.mem_append_right _ hr), hid⟩

/-- The request in flight is completed by its line. -/
theorem dispatch_slot (s : Client) (ev : Event) (id : ReqId) :
    ((s.dispatch ev).callers id).slot = (s.callers id).slot ∨
      ∃ req r, (dispatchEvent ev s.pending).reply = some (req, r) ∧ req.id = id ∧
        ((s.dispatch ev).callers id).slot = .filled r := by
  unfold Client.dispatch Client.complete
  dsimp only
  split
  · next req r hr =>
    by_cases hid : id = req.id
    · exact .inr ⟨req, r, hr, hid.symm, by simp [hid]⟩
    · exact .inl (by simp [hid])
  · exact .inl rfl

/-- The session reads the line that completes a request. -/
theorem sessionLine_slot {b : UInt8} {bs : List UInt8} {ev : Event} {req : Request} {r : Reply}
    (hev : lineEvent env.codec (b :: bs) = some ev)
    (hreply : (dispatchEvent ev s.pending).reply = some (req, r)) :
    ((s.sessionLine env (b :: bs)).callers req.id).slot = .filled r := by
  obtain ⟨text, hutf, hev⟩ := Option.bind_eq_some_iff.mp hev
  unfold Client.sessionLine
  dsimp only
  rw [hutf]
  dsimp only
  cases hdec : decodeEvent env.codec text with
  | error e =>
    rw [hdec] at hev
    cases hev
  | ok ev' =>
    rw [hdec] at hev
    cases hev
    dsimp only
    unfold Client.dispatch Client.complete
    simp [hreply]

/-- **One use.** What a step does to the channel of a request. -/
theorem Move.slot_cases {a : Action} (h : Move env s a s') (id : ReqId) :
    SlotMove env s a id (s'.callers id).slot := by
  cases h with
  | call =>
    by_cases hid : id = s.nCalls
    · exact .called hid (by simp [hid])
    · exact .keep (by simp [hid])
  | @refused k | @send k | @receive k | @lost k | @timeout k =>
    by_cases hid : id = k
    · subst hid
      exact .keep (by simp)
    · exact .keep (by simp [hid])
  | @helloLine l st hd hpoll =>
    rw [(helloLine_callers env _ l).1]
    exact .keep rfl
  | @sessionLine l st hd hpoll =>
    -- leaving the session drops the request that waits for a reply, and no other
    have hgone (log : SessionLog) : SlotMove env s .poll id
        ((Client.disconnected { s.setStream st with log := log }).callers id).slot := by
      rcases Client.leaveSession_slot { s.setStream st with log := log } id with hs | ⟨hid, hs⟩
      · exact .keep hs
      · exact .dropped (holds_of_pending hid) hs
    cases l with
    | nil => exact hgone s.log
    | cons b bs =>
      obtain ⟨log, he | he | ⟨ev, hev, he⟩⟩ :=
        sessionLine_cases env (s.setStream st) (b :: bs)
      · rw [he]
        exact hgone log
      · rw [he]
        exact .keep rfl
      · rw [he]
        rcases dispatch_slot { s.setStream st with log := log } ev id with
          hs | ⟨req, r, hr, hid, hs⟩
        · exact .keep hs
        · refine .completed (lineRead_of_poll hpoll) ?_ hid hs
          unfold completes
          rw [hd, hev]
          exact hr
  | sessionReadErr hd =>
    rcases s.leaveSession_slot id with hs | ⟨hid, hs⟩
    · exact .keep hs
    · exact .dropped (holds_of_pending hid) hs
  | @recvBusy req other queue hd hq hp =>
    by_cases hid : id = req.id
    · exact .failed (holds_of_queue ⟨req, by simp [hq], hid.symm⟩) .inFlight (by simp [hid])
    · exact .keep (by simp [hid])
  -- first the request that could not be written is answered, then the session is left
  | @writeErr req res msg hd hres =>
    rcases (s.setSlot req (.filled (.error msg))).leaveSession_slot id with hs | ⟨hid, hs⟩
    · by_cases hid : id = req.id
      · refine .failed ⟨req, ?_, hid.symm⟩ (Wrote.localError hres) (hs.trans (by simp [hid]))
        simp [Client.inflight, Client.queued, hd, DriverPc.request]
      · exact .keep (hs.trans (by simp [hid]))
    · exact .dropped (holds_of_pending hid) hs
  | shutdown =>
    rcases Client.stop_slot { s with shutdown := false } id with hs | ⟨hid, hs⟩
    · exact .keep hs
    · exact .dropped (holds_of_queue hid) hs
  | shutdownSession =>
    have hq : (Client.leaveSession { s with shutdown := false }).queue = s.queue := by simp
    rcases Client.stop_slot (Client.leaveSession { s with shutdown := false }) id with
      hs | ⟨hid, hs⟩
    · rcases Client.leaveSession_slot { s with shutdown := false } id with hs' | ⟨hid, hs'⟩
      · exact .keep (hs.trans hs')
      · exact .dropped (holds_of_pending hid) (hs.trans hs')
    · exact .dropped (holds_of_queue (hq ▸ hid)) hs
  | _ => exact .keep rfl

/-- The line that completes a request fills its channel. -/
theorem Move.completed {a : Action} (h : Move env s a s') {l : List UInt8} {req : Request}
    {r : Reply} (hread : lineRead s a = some l) (hdone : completes env.codec s l = some (req, r)) :
    s.pending = some req ∧ (s'.callers req.id).slot = .filled r := by
  unfold completes at hdone
  split at hdone
  · next hd =>
    obtain ⟨ev, hev, hreply⟩ := Option.bind_eq_some_iff.mp hdone
    have hpend : s.pending = some req := by
      rcases dispatchEvent_cases ev s.pending with ⟨-, hr⟩ | ⟨req', r', hp, -, hr⟩
      · rw [hr] at hreply
        cases hreply
      · rw [hr] at hreply
        cases hreply
        exact hp
    refine ⟨hpend, ?_⟩
    cases h with
    | @sessionLine l' st _ hpoll =>
      cases l' with
      | nil =>
        rw [lineRead_nil hpoll] at hread
        cases hread
      | cons b bs =>
        rw [lineRead_of_poll hpoll] at hread
        cases hread
        exact sessionLine_slot hev hreply
    | hold _ hpoll =>
      rw [lineRead_hold hpoll] at hread
      cases hread
    | helloLine hd' =>
      rw [hd] at hd'
      cases hd'
    | _ => cases hread
  · cases hdone

/-! ## Results stay -/

/-- A channel that has been used is not used again. -/
theorem Move.slot_stable {a : Action} (h : Move env s a s') (hI : InFlight s) {id : ReqId}
    (hid : id < s.nCalls) (hslot : (s.callers id).slot ≠ .empty) :
    (s'.callers id).slot = (s.callers id).slot := by
  have hused : ¬ s.holds id := by
    rintro ⟨r, hr, rfl⟩
    exact hslot (hI.slot r hr)
  cases h.slot_cases id with
  | keep he => exact he
  | called he => exact absurd he (Nat.ne_of_lt hid)
  | dropped hh | failed hh => exact absurd hh hused
  | @completed l req r hread hdone he =>
    refine absurd ?_ hused
    exact holds_of_pending ⟨req, by simp [(h.completed hread hdone).1], he⟩

/-- A caller that has returned stays where it is. -/
theorem Move.returned_stable {a : Action} (h : Move env s a s') (hI : InFlight s) {id : ReqId}
    {r : Reply} (hpc : (s.callers id).pc = .returned r) : (s'.callers id).pc = .returned r := by
  rcases h.caller_cases id with he | ⟨hid, -⟩ | ⟨hsend, -⟩ | ⟨deadline, r', hw, -⟩
  · rw [he, hpc]
  · rw [hI.fresh id (Nat.le_of_eq hid.symm)] at hpc
    cases hpc
  · rw [hsend] at hpc
    cases hpc
  · rw [hw] at hpc
    cases hpc

/-- What a caller returns: what is in its channel, or an error of its own. -/
theorem Move.returned_cases {a : Action} (h : Move env s a s') {id : ReqId} {r : Reply}
    (hpc : (s'.callers id).pc = .returned r) :
    (s.callers id).pc = .returned r ∨ (s.callers id).slot = .filled r ∨
      ∃ msg, LocalError msg ∧ r = .error msg := by
  by_cases hsend : a = .send id
  · subst hsend
    cases h with
    | refused => exact .inr (.inr ⟨_, .stopped, by simpa using hpc.symm⟩)
    | send => simp at hpc
  by_cases hreceive : a = .receive id
  · subst hreceive
    cases h with
    | receive hw hslot =>
      obtain rfl : _ = r := by simpa using hpc
      exact .inr (.inl hslot)
    | lost => exact .inr (.inr ⟨_, .disconnected, by simpa using hpc.symm⟩)
  by_cases htimeout : a = .timeout id
  · subst htimeout
    cases h with
    | timeout => exact .inr (.inr ⟨_, .timedOut, by simpa using hpc.symm⟩)
  refine .inl ((h.caller_eq ?_ hsend hreceive htimeout).symm.trans hpc)
  rintro ⟨kind, rfl⟩ rfl
  cases h
  simp at hpc

/-! ## What was called -/

/-- Calls are numbered in order. -/
theorem Move.nCalls_le {a : Action} (h : Move env s a s') : s.nCalls ≤ s'.nCalls := by
  cases h with
  | call => exact Nat.le_succ _
  | @helloLine l st hd hpoll =>
    rw [(helloLine_callers env _ l).2]
    exact Nat.le_refl _
  | @sessionLine l st hd hpoll =>
    obtain ⟨log, he | he | ⟨ev, -, he⟩⟩ := sessionLine_cases env (s.setStream st) l
    · rw [he]
      simp
    · rw [he]
      exact Nat.le_refl _
    · obtain ⟨callers, pending, events, log', he', -⟩ := Client.dispatch_eq _ ev
      rw [he, he']
      exact Nat.le_refl _
  | _ => simp

theorem Client.dropAll_kind (reqs : List Request) (s : Client) (id : ReqId) :
    ((Client.dropAll reqs s).callers id).kind = (s.callers id).kind := by
  induction reqs generalizing s with
  | nil => rfl
  | cons req reqs ih =>
    refine (ih (s.setSlot req .dropped)).trans ?_
    by_cases hid : id = req.id
    · simp [hid]
    · simp [hid]

theorem dispatch_kind (s : Client) (ev : Event) (id : ReqId) :
    ((s.dispatch ev).callers id).kind = (s.callers id).kind := by
  unfold Client.dispatch Client.complete
  dsimp only
  split
  · next req r hr =>
    by_cases hid : id = req.id
    · simp [hid]
    · simp [hid]
  · rfl

/-- What a caller has called does not change. -/
theorem Move.kind_eq {a : Action} (h : Move env s a s') {id : ReqId} (hid : id < s.nCalls) :
    (s'.callers id).kind = (s.callers id).kind := by
  cases h with
  | call => simp [Nat.ne_of_lt hid]
  | @refused k | @send k | @receive k | @lost k | @timeout k =>
    by_cases hk : id = k
    · simp [hk]
    · simp [hk]
  | @helloLine l st hd hpoll =>
    rw [(helloLine_callers env _ l).1]
    rfl
  | @sessionLine l st hd hpoll =>
    obtain ⟨log, he | he | ⟨ev, -, he⟩⟩ := sessionLine_cases env (s.setStream st) l
    · rw [he]
      exact Client.dropAll_kind _ _ id
    · rw [he]
      rfl
    · rw [he]
      exact dispatch_kind _ ev id
  | sessionReadErr => exact Client.dropAll_kind _ _ id
  | @recvBusy req | @writeErr req =>
    by_cases hk : id = req.id
    · simp [hk, Client.dropAll_kind]
    · simp [hk, Client.dropAll_kind]
  | shutdown => exact Client.dropAll_kind _ _ id
  | shutdownSession => exact (Client.dropAll_kind _ _ id).trans (Client.dropAll_kind _ _ id)
  | _ => rfl

/-- A request carries the kind of its call. -/
def Kinds (s : Client) : Prop := ∀ r ∈ s.inflight, (s.callers r.id).kind = r.kind

/-- Only the driver, when it has written the command, makes a request wait. -/
theorem Move.pending_cases {a : Action} (h : Move env s a s') (hI : InFlight s) {r : Request}
    (hr : s'.pending = some r) : s.pending = some r ∨ s.driver = .writing r := by
  have hsession : s'.driver = .session := by
    by_contra hd
    rw [(hI.step h).pending hd] at hr
    cases hr
  cases h with
  | wrote hd hres =>
    obtain rfl : _ = r := by simpa using hr
    exact .inr hd
  | @helloLine l st hd hpoll =>
    rcases helloLine_cases env (s.setStream st) l with
      he | ⟨v, c, p, he⟩ | ⟨o, he⟩ | ⟨c, m, he⟩
    all_goals
      rw [he] at hr
      first
        | exact .inl hr
        | cases hr
  | @sessionLine l st hd hpoll =>
    rcases sessionLine_socket env (s.setStream st) l with ⟨hgone, -⟩ | ⟨-, -, -, hp⟩
    · unfold Client.hasSocket at hgone
      rw [hsession] at hgone
      cases hgone
    · rw [hp] at hr
      split at hr
      · next ev _ =>
        rcases dispatchEvent_cases ev s.pending with ⟨he, -⟩ | ⟨req, r', -, he, -⟩
        · exact .inl (he ▸ hr)
        · exact absurd (he.symm.trans hr) (by simp)
      · exact .inl hr
  | sessionReadErr | writeErr | shutdownSession => simp at hr
  | shutdown => exact .inl (by simpa using hr)
  | _ => exact .inl hr

/-- Only `cmd_tx.send` makes a request. -/
theorem Move.inflight_cases {a : Action} (h : Move env s a s') (hI : InFlight s) {r : Request}
    (hr : r ∈ s'.inflight) :
    r ∈ s.inflight ∨ a = .send r.id ∧ r.kind = (s.callers r.id).kind := by
  unfold Client.inflight at hr
  rcases List.mem_append.mp hr with hr | hr
  · left
    rcases h.pending_cases hI (Option.mem_toList.mp hr) with hp | hd
    · exact List.mem_append_left _ (Option.mem_toList.mpr hp)
    · simp [Client.inflight, Client.queued, hd, DriverPc.request]
  · rcases h.queued_cases hr with hq | ⟨hsend, deadline, hwait⟩
    · exact .inl (List.mem_append_right _ hq)
    · by_cases ha : a = .send r.id
      · subst ha
        cases h with
        | refused => simp at hwait
        | send hpc hd hroom =>
          simp only [Client.queued, Client.setCaller, Client.modCaller, List.mem_append,
            List.mem_singleton] at hr
          rcases hr with hr | hr | he
          · exact .inl (List.mem_append_right _ (List.mem_append_left _ hr))
          · exact .inl (List.mem_append_right _ (List.mem_append_right _ hr))
          · exact .inr ⟨rfl, by rw [he]⟩
      · -- nothing else moves a caller that has not sent its request
        have hne : r.id ≠ s.nCalls := Nat.ne_of_lt (hI.lt_nCalls (by simp [hsend]))
        have hpc := h.caller_eq (fun _ => hne) ha
          (fun he => by
            subst he
            cases h with
            | receive hw | lost hw => exact CallerPc.noConfusion (hsend.symm.trans hw))
          (fun he => by
            subst he
            cases h with
            | timeout hw => exact CallerPc.noConfusion (hsend.symm.trans hw))
        rw [hpc, hsend] at hwait
        cases hwait

namespace Kinds

theorem init : Kinds (.init env) := fun _ hr => absurd hr List.not_mem_nil

theorem step (hK : Kinds s) (hI : InFlight s) {a : Action} (h : Move env s a s') : Kinds s' := by
  intro r hr
  rcases h.inflight_cases hI hr with hold | ⟨ha, hkind⟩
  · rw [h.kind_eq (hI.known r hold)]
    exact hK r hold
  · have hlt : r.id < s.nCalls := by
      subst ha
      cases h with
      | refused hpc | send hpc => exact hI.lt_nCalls (by simp [hpc])
    rw [h.kind_eq hlt, hkind]

end Kinds

end EasyTierMac.Bridge
