import EasyTierMac.Bridge.InFlight
import EasyTierMac.Bridge.Link
import EasyTierMac.Bridge.Runs

/-!
# Every call returns

A call of `start`, `stop` or `status` waits twice: for room in the channel, and for its reply.
Its reply can only come if the request and its oneshot sender are still somewhere, so a request
that was lost would cost its caller the whole timeout. `Answerable` says that none is: a caller
whose slot is untouched has its request in the channel or in the session, and with the driver
the requests it holds are dropped.

`calls_return` draws the conclusion: a caller waits for its reply twenty seconds at most, and as
soon as the driver has returned it does not wait at all; so from any state a shutdown brings
every call back (`shutdown_returns`), also one that is stuck before a channel that is full.
-/

namespace EasyTierMac.Bridge

open Transition (System)

variable {env : ClientEnv} {s s' : Client} {a : Action}

structure Answerable (s : Client) : Prop where
  room : s.queue.length ≤ CHANNEL
  called : ∀ id < s.nCalls, (s.callers id).pc ≠ .absent
  deadline : ∀ id deadline, (s.callers id).pc = .waiting deadline →
    deadline ≤ s.now + REQUEST_TIMEOUT
  /-- The request of a caller whose slot is untouched is somewhere. -/
  inflight : ∀ id deadline, (s.callers id).pc = .waiting deadline → (s.callers id).slot = .empty →
    id ∈ s.inflight.map Request.id
  stopped : s.driver = .stopped → s.queue = []

/-! ## No request is lost -/

/-- A slot that is marked stays marked. -/
theorem Client.dropAll_marked {id : ReqId} : ∀ (reqs : List Request) (s : Client),
    (s.callers id).slot ≠ .empty → ((Client.dropAll reqs s).callers id).slot ≠ .empty
  | [], _, hs => hs
  | q :: reqs, s, hs => by
    refine Client.dropAll_marked reqs (s.setSlot q .dropped) ?_
    by_cases he : id = q.id
    · simp [he]
    · simpa [he] using hs

/-- A request that is dropped leaves a mark in its caller's slot. -/
theorem Client.dropAll_marks {r : Request} (reqs : List Request) (s : Client) (hr : r ∈ reqs) :
    ((Client.dropAll reqs s).callers r.id).slot ≠ .empty := by
  induction reqs generalizing s with
  | nil => cases hr
  | cons q reqs ih =>
    rcases List.mem_cons.mp hr with he | hr
    · refine Client.dropAll_marked reqs (s.setSlot q .dropped) ?_
      rw [he]
      simp
    · exact ih (s.setSlot q .dropped) hr

/-- A request is still somewhere, or has been answered or dropped. -/
def Accounted (s s' : Client) : Prop :=
  ∀ r ∈ s.inflight, r ∈ s'.inflight ∨ (s'.callers r.id).slot ≠ .empty

theorem accounted_same (h : s'.inflight = s.inflight) : Accounted s s' := by
  intro r hr
  rw [h]
  exact .inl hr

/-- The senders of some requests are used. -/
theorem accounted_finish (reqs : List Request) (hin : s.inflight ⊆ reqs ++ s'.inflight)
    (hslot : ∀ r ∈ reqs, (s'.callers r.id).slot ≠ .empty) : Accounted s s' := by
  intro r hr
  rcases List.mem_append.mp (hin hr) with hr | hr
  · exact .inr (hslot r hr)
  · exact .inl hr

theorem accounted_disconnected (hd : s.driver = .session) : Accounted s s.disconnected := by
  refine accounted_finish s.pending.toList ?_ fun r hr => Client.dropAll_marks _ s hr
  intro r hr
  simpa [Client.inflight, Client.queued, hd, DriverPc.request] using hr

theorem accounted_dispatch (s : Client) (ev : Event) : Accounted s (s.dispatch ev) := by
  intro r hr
  unfold Client.dispatch Client.complete
  rcases dispatchEvent_cases ev s.pending with ⟨hp, hrep⟩ | ⟨req, rep, hpend, hp, hrep⟩
  · left
    dsimp only
    rw [hp, hrep]
    exact hr
  · dsimp only
    rw [hp, hrep]
    unfold Client.inflight at hr
    rw [hpend, List.mem_append] at hr
    rcases hr with hr | hr
    · right
      simp only [Option.toList_some, List.mem_singleton] at hr
      rw [hr]
      simp
    · left
      unfold Client.inflight
      exact List.mem_append_right _ hr

theorem Move.accounted (hI : InFlight s) (h : Move env s a s') : Accounted s s' := by
  cases h with
  | call | refused | receive | lost | timeout | hold | fill | requestShutdown | requestTakeover
  | requestReconnect | arrive | hangup | tick => exact accounted_same rfl
  | send hpc =>
    intro r hr
    left
    simp only [Client.inflight, Client.queued, Client.setCaller, Client.modCaller, List.mem_append]
      at hr ⊢
    tauto
  | connect hd | connectErr hd | hello hd | helloErr hd | helloReadErr hd | takeover hd
  | reconnect hd | elapse hd =>
    exact accounted_same (by simp [Client.inflight, Client.queued, hd, DriverPc.request])
  | @helloLine l st hd =>
    have hpend : s.pending = none := hI.pending (by simp [hd])
    rcases helloLine_cases env (s.setStream st) l with he | ⟨v, c, p, he⟩ | ⟨o, he⟩ | ⟨c, m, he⟩
    all_goals
      rw [he]
      exact accounted_same (by simp [Client.inflight, Client.queued, hd, hpend, DriverPc.request])
  | @sessionLine l st hd =>
    obtain ⟨log, he | he | ⟨ev, -, he⟩⟩ := sessionLine_cases env (s.setStream st) l
    · rw [he]
      exact accounted_disconnected (s := { s.setStream st with log := log }) hd
    · rw [he]
      exact accounted_same rfl
    · rw [he]
      exact accounted_dispatch { s.setStream st with log := log } ev
  | sessionReadErr hd => exact accounted_disconnected hd
  | recv hd hq hp =>
    exact accounted_same (by simp [Client.inflight, Client.queued, hd, hq, hp, DriverPc.request])
  | @recvBusy req other queue hd hq hp =>
    refine accounted_finish [req] ?_ fun r hr => ?_
    · intro r hr
      simp only [Client.inflight, Client.queued, hd, hq, hp, DriverPc.request, Option.toList_some,
        List.nil_append, List.mem_append, List.mem_cons, List.not_mem_nil, or_false,
        Client.setSlot, Client.modCaller, Client.setStream] at hr ⊢
      tauto
    · rw [List.mem_singleton.mp hr]
      simp
  | wrote hd =>
    have hpend : s.pending = none := hI.pending (by simp [hd])
    exact accounted_same (by simp [Client.inflight, Client.queued, hd, hpend, DriverPc.request])
  | @writeErr req res msg hd =>
    have hpend : s.pending = none := hI.pending (by simp [hd])
    refine accounted_finish [req] ?_ fun r hr => ?_
    · intro r hr
      simpa [Client.inflight, Client.queued, hd, hpend, DriverPc.request] using hr
    · rw [List.mem_singleton.mp hr]
      simp [hpend, Client.dropAll]
  | shutdown _ hd hw =>
    have hpend : s.pending = none := hI.pending hd
    have hreq : s.driver.request = [] := by
      cases hpc : s.driver with
      | writing req => exact absurd hpc (hw req)
      | _ => rfl
    refine accounted_finish s.queue ?_ fun r hr => Client.dropAll_marks _ _ hr
    intro r hr
    have hq : r ∈ s.queue := by simpa [Client.inflight, Client.queued, hreq, hpend] using hr
    exact List.mem_append_left _ hq
  | shutdownSession _ hd =>
    refine accounted_finish (s.pending.toList ++ s.queue) ?_ fun r hr => ?_
    · intro r hr
      apply List.mem_append_left
      simpa [Client.inflight, Client.queued, hd, DriverPc.request] using hr
    · rcases List.mem_append.mp hr with hr | hr
      · refine Client.dropAll_marked _ _ ?_
        exact Client.dropAll_marks _ { s with shutdown := false } hr
      · refine Client.dropAll_marks _ _ ?_
        simpa using hr

/-- A mark is not wiped off. -/
theorem Move.slot_marked {id : ReqId} (h : Move env s a s') (hid : id < s.nCalls)
    (hs : (s.callers id).slot ≠ .empty) : (s'.callers id).slot ≠ .empty := by
  have hmark : ∀ {s₁ : Client} (req : Request) (slot : Slot), slot ≠ .empty →
      (s₁.callers id).slot ≠ .empty → ((s₁.setSlot req slot).callers id).slot ≠ .empty := by
    intro s₁ req slot hslot hs₁
    by_cases he : id = req.id
    · simpa [he] using hslot
    · simpa [he] using hs₁
  have hcaller : ∀ (k : ReqId) (pc : CallerPc), ((s.setCaller k pc).callers id).slot ≠ .empty := by
    intro k pc
    by_cases he : id = k
    · subst he
      simpa using hs
    · simpa [he] using hs
  cases h with
  | call =>
    have hne : id ≠ s.nCalls := Nat.ne_of_lt hid
    simpa [hne] using hs
  | refused | receive | lost | timeout => exact hcaller _ _
  | send => exact hcaller _ _
  | @helloLine l st hd =>
    rw [(helloLine_callers env _ l).1]
    exact hs
  | @sessionLine l st hd =>
    obtain ⟨log, he | he | ⟨ev, -, he⟩⟩ := sessionLine_cases env (s.setStream st) l
    · rw [he]
      exact Client.dropAll_marked _ _ hs
    · rw [he]
      exact hs
    · rw [he]
      unfold Client.dispatch Client.complete
      dsimp only
      split
      · exact hmark _ _ Slot.noConfusion hs
      · exact hs
  | sessionReadErr => exact Client.dropAll_marked _ _ hs
  | recvBusy => exact hmark _ _ Slot.noConfusion hs
  | writeErr => exact Client.dropAll_marked _ _ (hmark _ _ Slot.noConfusion hs)
  | shutdown => exact Client.dropAll_marked _ _ hs
  | shutdownSession => exact Client.dropAll_marked _ _ (Client.dropAll_marked _ _ hs)
  | _ => exact hs

/-! ## The bounds -/

/-- Who waits after a step: one who waited, or one whose request has just gone into the channel. -/
theorem Move.waiting_cases {id : ReqId} {deadline : Nat} (h : Move env s a s')
    (hw : (s'.callers id).pc = .waiting deadline) :
    (s.callers id).pc = .waiting deadline ∨
      deadline = s.now + REQUEST_TIMEOUT ∧ id ∈ s'.inflight.map Request.id := by
  by_cases hsend : a = .send id
  · subst hsend
    right
    cases h with
    | refused => simp at hw
    | send hpc hd hroom =>
      refine ⟨?_, List.mem_map.mpr ⟨⟨id, (s.callers id).kind⟩, ?_, rfl⟩⟩
      · simpa using hw.symm
      · simp [Client.inflight, Client.queued]
  · left
    rcases h.caller_cases id with heq | ⟨-, hpc⟩ | ⟨hpc, hne⟩ | ⟨_, r, -, hpc, -⟩
    · rw [← heq]
      exact hw
    · rw [hpc] at hw
      cases hw
    · -- only `send` takes a caller out of `cmd_tx.send`
      have heq : (s'.callers id).pc = (s.callers id).pc := h.caller_eq ?_ hsend ?_ ?_
      · rw [heq] at hne
        exact absurd hpc hne
      · rintro ⟨kind, rfl⟩ he
        cases h
        simp [he] at hne
      · rintro rfl
        cases h with
        | receive hw' | lost hw' => simp [hpc] at hw'
      · rintro rfl
        cases h with
        | timeout hw' => simp [hpc] at hw'
    · rw [hpc] at hw
      cases hw

theorem Move.room (h : Move env s a s') (hroom : s.queue.length ≤ CHANNEL) :
    s'.queue.length ≤ CHANNEL := by
  cases h with
  | send hpc hd hlt =>
    show (s.queue ++ [_]).length ≤ CHANNEL
    simp only [List.length_append, List.length_singleton]
    omega
  | @helloLine l st hd =>
    rcases helloLine_cases env (s.setStream st) l with he | ⟨v, c, p, he⟩ | ⟨o, he⟩ | ⟨c, m, he⟩
    all_goals
      rw [he]
      exact hroom
  | @sessionLine l st hd =>
    obtain ⟨log, he | he | ⟨ev, -, he⟩⟩ := sessionLine_cases env (s.setStream st) l
    · rw [he]
      simpa using hroom
    · rw [he]
      exact hroom
    · obtain ⟨callers, pending, events, log', he', -⟩ := Client.dispatch_eq _ ev
      rw [he, he']
      exact hroom
  | recv hd hq | recvBusy hd hq =>
    rw [hq, List.length_cons] at hroom
    exact Nat.le_of_succ_le hroom
  | sessionReadErr | writeErr => simpa using hroom
  | shutdown | shutdownSession => simp
  | _ => exact hroom

/-- A driver that has returned has dropped its channel. -/
theorem Move.emptied (h : Move env s a s') (hq : s.driver = .stopped → s.queue = [])
    (hd' : s'.driver = .stopped) : s'.queue = [] := by
  cases h with
  | call | refused | receive | lost | timeout | requestShutdown | requestTakeover
  | requestReconnect | arrive | hangup | tick | hold | fill => exact hq hd'
  | send hpc hd => exact absurd hd' hd
  | connect | connectErr | hello | helloErr | helloReadErr | recv | wrote | takeover | reconnect
  | elapse => cases hd'
  | recvBusy hd =>
    have hst : s.driver = .stopped := hd'
    rw [hd] at hst
    cases hst
  | sessionReadErr | writeErr => simp at hd'
  | @helloLine l st hd =>
    rcases helloLine_cases env (s.setStream st) l with he | ⟨v, c, p, he⟩ | ⟨o, he⟩ | ⟨c, m, he⟩
    all_goals
      rw [he] at hd'
      cases hd'
  | @sessionLine l st hd =>
    have hin : (s.setStream st).driver = .session := hd
    obtain ⟨log, he | he | ⟨ev, -, he⟩⟩ := sessionLine_cases env (s.setStream st) l
    · rw [he] at hd'
      simp at hd'
    · rw [he] at hd'
      exact absurd (hd'.symm.trans hin) DriverPc.noConfusion
    · rw [he, (dispatch_driver _ ev).1] at hd'
      exact absurd (hd'.symm.trans hin) DriverPc.noConfusion
  | shutdown | shutdownSession => simp

/-- A call is made by its caller. -/
theorem Move.called {id : ReqId} (h : Move env s a s') (hid : id < s'.nCalls) :
    id < s.nCalls ∨ (s'.callers id).pc = .sending := by
  cases h with
  | call =>
    rcases Nat.lt_succ_iff_lt_or_eq.mp hid with hid | he
    · exact .inl hid
    · right
      simp [he]
  | @helloLine l st hd =>
    rw [(helloLine_callers env _ l).2] at hid
    exact .inl hid
  | @sessionLine l st hd =>
    left
    obtain ⟨log, he | he | ⟨ev, -, he⟩⟩ := sessionLine_cases env (s.setStream st) l
    · rw [he] at hid
      simpa using hid
    · rw [he] at hid
      exact hid
    · obtain ⟨callers, pending, events, log', he', -⟩ := Client.dispatch_eq _ ev
      rw [he, he'] at hid
      exact hid
  | sessionReadErr | writeErr | shutdown | shutdownSession =>
    left
    simpa using hid
  | _ => exact .inl hid

/-- A caller does not go away. -/
theorem Move.present {id : ReqId} (h : Move env s a s') (hpc : (s.callers id).pc ≠ .absent) :
    (s'.callers id).pc ≠ .absent := by
  cases h with
  | @refused k | @send k | @receive k | @lost k | @timeout k =>
    by_cases he : id = k
    · simp [he]
    · simpa [he] using hpc
  | call =>
    by_cases he : id = s.nCalls
    · simp [he]
    · simpa [he] using hpc
  | @helloLine l st hd =>
    rw [(helloLine_callers env _ l).1]
    exact hpc
  | @sessionLine l st hd =>
    obtain ⟨log, he | he | ⟨ev, -, he⟩⟩ := sessionLine_cases env (s.setStream st) l
    · rw [he]
      simpa [Client.dropAll_pc] using hpc
    · rw [he]
      exact hpc
    · obtain ⟨callers, pending, events, log', he', hsame⟩ := Client.dispatch_eq _ ev
      rw [he, he']
      exact (hsame id).trans_ne hpc
  | _ => simpa [Client.dropAll_pc] using hpc

theorem Move.now_le (h : Move env s a s') : s.now ≤ s'.now := by
  cases h with
  | tick => exact Nat.le_add_right _ _
  | @helloLine l st hd =>
    rcases helloLine_cases env (s.setStream st) l with he | ⟨v, c, p, he⟩ | ⟨o, he⟩ | ⟨c, m, he⟩
    all_goals
      rw [he]
      exact Nat.le_refl _
  | @sessionLine l st hd =>
    obtain ⟨log, he | he | ⟨ev, -, he⟩⟩ := sessionLine_cases env (s.setStream st) l
    · rw [he]
      simp
    · rw [he]
      exact Nat.le_refl _
    · rw [he, (dispatch_driver _ ev).2.2.2]
      exact Nat.le_refl _
  | sessionReadErr | writeErr | shutdown | shutdownSession => simp
  | _ => exact Nat.le_refl _

namespace Answerable

theorem step (h : Answerable s) (hI : InFlight s) (hs : Move env s a s') : Answerable s' where
  room := hs.room h.room
  called id hid := by
    rcases hs.called hid with hid | hnew
    · exact hs.present (h.called id hid)
    · simp [hnew]
  deadline id deadline hw := by
    have hle := hs.now_le
    rcases hs.waiting_cases hw with hold | ⟨he, -⟩
    · have hd := h.deadline id deadline hold
      omega
    · omega
  inflight id deadline hw hslot := by
    rcases hs.waiting_cases hw with hold | ⟨-, hin⟩
    · have hid : id < s.nCalls := hI.lt_nCalls (by simp [hold])
      have hempty : (s.callers id).slot = .empty := by
        by_contra hne
        exact hs.slot_marked hid hne hslot
      obtain ⟨r, hr, he⟩ := List.mem_map.mp (h.inflight id deadline hold hempty)
      subst he
      rcases hs.accounted hI r hr with hr | hne
      · exact List.mem_map_of_mem hr
      · exact absurd hslot hne
    · exact hin
  stopped hd := hs.emptied h.stopped hd

end Answerable

theorem answerable_of_reachable (h : (client env).Reachable s) : Answerable s := by
  refine h.invariant (I := Answerable) ?_ ?_
  · exact ⟨Nat.zero_le _, fun id hid => absurd hid (Nat.not_lt_zero id),
      fun _ _ hw => CallerPc.noConfusion hw, fun _ _ hw => CallerPc.noConfusion hw, fun _ => rfl⟩
  · intro s a s' hr hA _ hs
    exact hA.step (.of_reachable hr) (step_move hs)

/-- With a driver that has returned there are no requests. -/
theorem inflight_of_stopped (hA : Answerable s) (hI : InFlight s) (hd : s.driver = .stopped) :
    s.inflight = [] := by
  have hpend : s.pending = none := hI.pending (by simp [hd])
  simp [Client.inflight, Client.queued, hpend, hd, hA.stopped hd, DriverPc.request]

/-- A caller with a mark in its slot returns. -/
theorem receive_returns (env : ClientEnv) {id : ReqId} {deadline : Nat}
    (hw : (s.callers id).pc = .waiting deadline) (hslot : (s.callers id).slot ≠ .empty) :
    ∃ r, step env s (.receive id) = some (s.setCaller id (.returned r)) := by
  cases hs : (s.callers id).slot with
  | empty => exact absurd hs hslot
  | filled r => exact ⟨r, by simp only [step, Client.receive, hw, hs]⟩
  | dropped => exact ⟨_, by simp only [step, Client.receive, hw, hs]; rfl⟩

/-- Steps that take no time and add no call, and in which no caller gives up. -/
def Prompt (_ : Client) (a : Action) : Prop :=
  match a with
  | .tick _ | .call _ | .timeout _ => False
  | _ => True

/-- A shutdown is obeyed: the driver returns, after the command that it is writing. -/
theorem driver_stops (env : ClientEnv) (s : Client) :
    ∃ s', (client env).PathBy Prompt s s' ∧ s'.driver = .stopped ∧ s'.nCalls = s.nCalls := by
  have hstop : ∀ s : Client, s.shutdown = true → (∀ req, s.driver ≠ .writing req) →
      s.driver ≠ .stopped →
      ∃ s', step env s .shutdown = some s' ∧ s'.driver = .stopped ∧ s'.nCalls = s.nCalls := by
    intro s hs hw hd
    cases hpc : s.driver with
    | writing req => exact absurd hpc (hw req)
    | stopped => exact absurd hpc hd
    | _ =>
      simp only [step, Client.shutdownStep, hs, hpc, if_true]
      refine ⟨_, rfl, ?_, ?_⟩
      · simp
      · simp
  have hreq : (client env).step s .requestShutdown { s with shutdown := true } := rfl
  have hprompt : ∀ {s : Client} {a : Action}, a = .requestShutdown ∨ a = .wrote .ok ∨ a = .shutdown →
      Prompt s a := by
    rintro s a (rfl | rfl | rfl) <;> exact trivial
  have hpath : (client env).PathBy Prompt s { s with shutdown := true } :=
    .tail .refl (hprompt (.inl rfl)) hreq
  by_cases hd : s.driver = .stopped
  · exact ⟨s, .refl, hd, rfl⟩
  by_cases hw : ∃ req, s.driver = .writing req
  · -- the command is written first
    obtain ⟨req, hw⟩ := hw
    have hwrote : ∃ s₁, step env { s with shutdown := true } (.wrote .ok) = some s₁ ∧
        s₁.shutdown = true ∧ s₁.driver = .session ∧ s₁.nCalls = s.nCalls := by
      simp only [step, Client.wroteStep, hw, Wrote.failure]
      exact ⟨_, rfl, rfl, rfl, rfl⟩
    obtain ⟨s₁, hst, hs₁, hd₁, hn₁⟩ := hwrote
    obtain ⟨s', hst', hd', hn'⟩ := hstop s₁ hs₁ (by simp [hd₁]) (by simp [hd₁])
    exact ⟨s', (hpath.tail (hprompt (.inr (.inl rfl))) hst).tail (hprompt (.inr (.inr rfl))) hst', hd',
      hn'.trans hn₁⟩
  · obtain ⟨s', hst, hd', hn'⟩ := hstop { s with shutdown := true } rfl
      (fun req he => hw ⟨req, he⟩) hd
    exact ⟨s', hpath.tail (hprompt (.inr (.inr rfl))) hst, hd', hn'⟩

/-- With a driver that has returned, the first `n` callers return one after another. -/
theorem callers_return (h : (client env).Reachable s) (hd : s.driver = .stopped) (n : Nat)
    (hn : n ≤ s.nCalls) :
    ∃ s', (client env).PathBy Prompt s s' ∧ s'.driver = .stopped ∧ s'.nCalls = s.nCalls ∧
      ∀ id < n, ∃ r, (s'.callers id).pc = .returned r := by
  induction n with
  | zero => exact ⟨s, .refl, hd, rfl, fun id hid => absurd hid (Nat.not_lt_zero id)⟩
  | succ n ih =>
    obtain ⟨s₁, hpath, hd₁, hn₁, hret⟩ := ih (Nat.le_of_succ_le hn)
    have hr₁ : (client env).Reachable s₁ := h.path (hpath.mono fun _ _ _ => trivial)
    have hA : Answerable s₁ := answerable_of_reachable hr₁
    have hI : InFlight s₁ := .of_reachable hr₁
    have hlt : n < s₁.nCalls := by omega
    -- the step of caller `n` leaves the others where they are
    have hone : ∀ {a : Action} {r : Reply}, Prompt s₁ a →
        step env s₁ a = some (s₁.setCaller n (.returned r)) →
        ∃ s', (client env).PathBy Prompt s s' ∧ s'.driver = .stopped ∧ s'.nCalls = s.nCalls ∧
          ∀ id < n + 1, ∃ r, (s'.callers id).pc = .returned r := by
      intro a r hp hst
      refine ⟨_, hpath.tail hp hst, hd₁, hn₁, ?_⟩
      intro id hid
      by_cases he : id = n
      · exact ⟨r, by simp [he]⟩
      · obtain ⟨r', hr'⟩ := hret id (by omega)
        exact ⟨r', by simpa [he] using hr'⟩
    cases hpc : (s₁.callers n).pc with
    | absent => exact absurd hpc (hA.called n hlt)
    | sending =>
      exact hone (a := .send n) trivial (by simp only [step, Client.send, hpc, hd₁, if_true]; rfl)
    | waiting deadline =>
      have hslot : (s₁.callers n).slot ≠ .empty := by
        intro hslot
        have hmem := hA.inflight n deadline hpc hslot
        rw [inflight_of_stopped hA hI hd₁] at hmem
        cases hmem
      obtain ⟨r, hst⟩ := receive_returns env hpc hslot
      exact hone (a := .receive n) trivial hst
    | returned r =>
      refine ⟨s₁, hpath, hd₁, hn₁, ?_⟩
      intro id hid
      by_cases he : id = n
      · exact ⟨r, he ▸ hpc⟩
      · exact hret id (by omega)

/-- **A shutdown brings every call back.** Whatever the driver is doing, and however full the
channel is, from the shutdown on no time need pass until every call that was made has returned. -/
theorem shutdown_returns (env : ClientEnv) (s : Client) (h : (client env).Reachable s) :
    ∃ s', (client env).PathBy Prompt s s' ∧ s'.driver = .stopped ∧
      ∀ id < s.nCalls, ∃ r, (s'.callers id).pc = .returned r := by
  obtain ⟨s₁, hpath, hd₁, hn₁⟩ := driver_stops env s
  have hr₁ : (client env).Reachable s₁ := h.path (hpath.mono fun _ _ _ => trivial)
  obtain ⟨s', hpath', hd', -, hret⟩ := callers_return hr₁ hd₁ s.nCalls (Nat.le_of_eq hn₁.symm)
  exact ⟨s', hpath.trans hpath', hd', hret⟩

namespace Trial

/-- Seventeen calls, of which the channel holds sixteen. -/
def channelFull : List Action :=
  List.replicate 17 (.call .status) ++ (List.range 16).map .send

end Trial

/-- The seventeenth call is stuck before a full channel; a shutdown brings it back. -/
theorem shutdown_returns_full : ∃ s s', (client Trial.env).Reachable s ∧
    (client Trial.env).PathBy Prompt s s' ∧ s.queue.length = 16 ∧ (s.callers 16).pc = .sending ∧
    step Trial.env s (.send 16) = none ∧ ∃ r, (s'.callers 16).pc = .returned r := by
  obtain ⟨s, hr, hd⟩ := exists_reachableBy Trial.env (fun _ _ => True) Trial.channelFull
    (fun s => decide (s.queue.length = 16 ∧ (s.callers 16).pc = .sending ∧ s.nCalls = 17 ∧
      (step Trial.env s (.send 16)).isNone = true)) (by decide +kernel)
  obtain ⟨hq, hpc, hn, hstuck⟩ := of_decide_eq_true hd
  obtain ⟨s', hpath, -, hret⟩ := shutdown_returns Trial.env s hr
  exact ⟨s, s', hr, hpath, hq, hpc, Option.isNone_iff_eq_none.mp hstuck, hret 16 (by omega)⟩

end EasyTierMac.Bridge
