import EasyTierMac.Bridge.InFlight

/-!
# The client, as its socket sees it

While the client has a socket, a step of it can start to write the command of a request
(`started`), take bytes and, with them, a line (`lineRead`), and complete the request in
flight with that line (`completes`). `Heard` lists what a step does to these and to
`asking`, the request that the session is writing or waits for.
-/

namespace EasyTierMac.Bridge

variable {env : ClientEnv} {s s' : Client}

/-- The request whose command the session writes, or whose reply it waits for. -/
def Client.asking (s : Client) : List Request := s.driver.request ++ s.pending.toList

/-- The request whose command the step starts to write. -/
def started (s s' : Client) : Option Request :=
  match s.driver, s'.driver with
  | .session, .writing req => some req
  | _, _ => none

/-- The line that the step reads: `read_line` returns more than `Ok(0)`. -/
def lineRead (s : Client) (a : Action) : Option (List UInt8) :=
  match a, s.stream.poll with
  | .poll, some (some (b :: l), _) => some (b :: l)
  | _, _ => none

/-- The request that a line completes, and how. -/
def completes (codec : Codec) (s : Client) (l : List UInt8) : Option (Request × Reply) :=
  match s.driver with
  | .session => (lineEvent codec l).bind fun ev => (dispatchEvent ev s.pending).reply
  | _ => none

/-- What a step does to a client that has a socket. -/
inductive Heard (env : ClientEnv) (s : Client) (a : Action) (s' : Client) : Prop
  /-- The socket is closed. -/
  | gone (sock : s'.hasSocket = false) (start : started s s' = none)
      (done : ∀ l, lineRead s a = some l → completes env.codec s l = none)
  /-- Nothing that the socket sees, but that it may be closed at the other end. -/
  | quiet (sock : s'.hasSocket = true) (start : started s s' = none) (read : lineRead s a = none)
      (session : s'.driver.inSession = s.driver.inSession) (asking : s'.asking = s.asking)
      (held : s'.stream.held = s.stream.held) (unread : s'.stream.unread = s.stream.unread)
      (closed : s.stream.closed = true → s'.stream.closed = true)
  /-- A part of a line is taken. -/
  | hold (sock : s'.hasSocket = true) (start : started s s' = none) (read : lineRead s a = none)
      (session : s'.driver.inSession = s.driver.inSession) (asking : s'.asking = s.asking)
      (poll : s.stream.poll = some (none, s'.stream))
  /-- A request is refused, and the part of a line that was taken is lost. -/
  | refuse (sock : s'.hasSocket = true) (start : started s s' = none) (read : lineRead s a = none)
      (session : s'.driver.inSession = s.driver.inSession) (asking : s'.asking = s.asking)
      (stream : s'.stream = s.stream.cut)
  /-- The command of a request is written, and the part of a line that was taken is lost. -/
  | ask {req : Request} (sock : s'.hasSocket = true) (start : started s s' = some req)
      (read : lineRead s a = none) (session : s.driver.inSession = true)
      (session' : s'.driver.inSession = true) (idle : s.asking = []) (asking : s'.asking = [req])
      (stream : s'.stream = s.stream.cut)
  /-- The reply to the hello is read. -/
  | greeted {l : List UInt8} {ev : Event} (sock : s'.hasSocket = true) (start : started s s' = none)
      (read : lineRead s a = some l) (poll : s.stream.poll = some (some l, s'.stream))
      (done : completes env.codec s l = none) (event : lineEvent env.codec l = some ev)
      (hello : ∃ proto version core rpcPort, ev = .hello proto version core rpcPort)
      (session : s.driver.inSession = false) (idle : s.asking = []) (idle' : s'.asking = [])
  /-- The session reads a line. -/
  | line {l : List UInt8} (sock : s'.hasSocket = true) (start : started s s' = none)
      (read : lineRead s a = some l) (poll : s.stream.poll = some (some l, s'.stream))
      (driver : s.driver = .session) (session' : s'.driver = .session)
      (asking : s'.asking = match lineEvent env.codec l with
        | some ev => (dispatchEvent ev s.pending).pending.toList
        | none => s.asking)

/-! ## Lines -/

theorem Stream.closed_of_poll {st st' : Stream} {line : Option (List UInt8)}
    (h : st.poll = some (line, st')) : st'.closed = st.closed := by
  unfold Stream.poll at h
  split at h
  · obtain ⟨-, h⟩ := Option.ite_none_right_eq_some.mp h
    cases h
    rfl
  · split at h <;>
    · cases h
      rfl

/-- Polling takes nothing from an empty stream. -/
theorem Stream.unread_of_poll {st st' : Stream} {line : Option (List UInt8)}
    (h : st.poll = some (line, st')) (hu : st.unread = []) : st'.unread = [] := by
  obtain ⟨hbuf, hsock⟩ := List.append_eq_nil_iff.mp hu
  unfold Stream.poll at h
  rw [if_pos hbuf] at h
  obtain ⟨-, h⟩ := Option.ite_none_right_eq_some.mp h
  cases h
  exact hu

theorem poll_of_lineRead {a : Action} {l : List UInt8} (h : lineRead s a = some l) :
    l ≠ [] ∧ ∃ st, s.stream.poll = some (some l, st) := by
  unfold lineRead at h
  split at h
  · next hpoll =>
    cases h
    exact ⟨List.cons_ne_nil _ _, _, hpoll⟩
  · cases h

theorem lineRead_of_poll {b : UInt8} {l : List UInt8} {st : Stream}
    (h : s.stream.poll = some (some (b :: l), st)) : lineRead s .poll = some (b :: l) := by
  unfold lineRead
  rw [h]

/-- The end of the stream is no line. -/
theorem lineRead_nil {st : Stream} (h : s.stream.poll = some (some [], st)) :
    lineRead s .poll = none := by
  unfold lineRead
  rw [h]

theorem lineRead_hold {st : Stream} (h : s.stream.poll = some (none, st)) :
    lineRead s .poll = none := by
  unfold lineRead
  rw [h]

theorem completes_of_ne {codec : Codec} (h : s.driver ≠ .session) (l : List UInt8) :
    completes codec s l = none := by
  unfold completes
  split
  · next hd => exact absurd hd h
  · rfl

theorem started_of_ne (h : s.driver ≠ .session) : started s s' = none := by
  unfold started
  split
  · next hd _ => exact absurd hd h
  · rfl

theorem started_to (h : ∀ req, s'.driver ≠ .writing req) : started s s' = none := by
  unfold started
  split
  · next req _ hd => exact absurd hd (h req)
  · rfl

theorem started_of_eq (h : s'.driver = s.driver) : started s s' = none := by
  unfold started
  rw [h]
  split
  · next req hd hd' =>
    rw [hd] at hd'
    cases hd'
  · rfl

theorem Stream.closed_of_fill {st st' : Stream} {n : Nat} (h : st.fill n = some st') :
    st'.closed = st.closed := by
  unfold Stream.fill at h
  obtain ⟨-, h⟩ := Option.ite_none_right_eq_some.mp h
  cases h
  rfl

/-- What the reply to the hello leads to: a session, or the end of the attempt. -/
theorem helloLine_socket (env : ClientEnv) (s : Client) (l : List UInt8) :
    (s.helloLine env l).hasSocket = false ∨
      ∃ ev proto version core rpcPort, lineEvent env.codec l = some ev ∧
        ev = .hello proto version core rpcPort ∧ l ≠ [] ∧
        s.helloLine env l = s.enterSession env version core rpcPort := by
  unfold Client.helloLine lineEvent
  split
  · exact .inl rfl
  · exact .inl rfl
  · next l hl text hne hutf =>
    dsimp only [Option.bind_some]
    split
    · next proto version core rpcPort hev =>
      right
      refine ⟨_, proto, version, core, rpcPort, ?_, rfl, ?_, rfl⟩
      · simp [hutf, hev, Except.toOption]
      · rintro rfl
        exact hne rfl
    · exact .inl rfl
    · exact .inl rfl
    · exact .inl rfl

/-- What a line of the session leads to: its end, or the dispatch of the event. -/
theorem sessionLine_socket (env : ClientEnv) (s : Client) (l : List UInt8) :
    ((s.sessionLine env l).hasSocket = false ∧ (l = [] ∨ lineEvent env.codec l = none)) ∨
      (l ≠ [] ∧ (s.sessionLine env l).driver = s.driver ∧
        (s.sessionLine env l).stream = s.stream ∧
        (s.sessionLine env l).pending = match lineEvent env.codec l with
          | some ev => (dispatchEvent ev s.pending).pending
          | none => s.pending) := by
  unfold Client.sessionLine lineEvent
  split
  · exact .inl ⟨rfl, .inl rfl⟩
  · next hne =>
    have hne' : l ≠ [] := fun he => hne he
    dsimp only
    cases hutf : Rust.fromUtf8 l with
    | none => exact .inl ⟨rfl, .inr rfl⟩
    | some text =>
      dsimp only [Option.bind_some]
      cases hev : decodeEvent env.codec text with
      | error e => exact .inr ⟨hne', rfl, rfl, rfl⟩
      | ok ev =>
        refine .inr ⟨hne', ?_⟩
        dsimp only [Except.toOption]
        unfold Client.dispatch Client.complete
        dsimp only
        split
        · exact ⟨rfl, rfl, rfl⟩
        · exact ⟨rfl, rfl, rfl⟩

/-! ## Every step -/

/-- The step does not touch the socket, and the driver stays where it is. -/
theorem Heard.of_driver_eq {a : Action} (hs : s.hasSocket = true) (hd : s'.driver = s.driver)
    (hp : s'.pending = s.pending) (hst : s'.stream = s.stream) (hread : lineRead s a = none) :
    Heard env s a s' := by
  refine .quiet ?_ (started_of_eq hd) hread (by rw [hd]) ?_ (by rw [hst]) (by rw [hst]) fun h => by
    rw [hst, h]
  · unfold Client.hasSocket at hs ⊢
    rwa [hd]
  · unfold Client.asking
    rw [hd, hp]

theorem Client.asking_session (hd : s.driver = .session) : s.asking = s.pending.toList := by
  unfold Client.asking
  rw [hd]
  rfl

/-- **What a step does** to a client that has a socket. -/
theorem Move.heard {a : Action} (h : Move env s a s') (hI : InFlight s) (hs : s.hasSocket = true)
    (ha : ∀ bytes, a ≠ .arrive bytes) : Heard env s a s' := by
  cases h with
  | call | refused | send | receive | lost | timeout | requestShutdown | requestTakeover
  | requestReconnect | tick => exact .of_driver_eq hs rfl rfl rfl rfl
  -- these start without a socket
  | connect hd | connectErr hd | takeover hd | reconnect hd | elapse hd =>
    unfold Client.hasSocket at hs
    rw [hd] at hs
    cases hs
  | hello hd =>
    have hstart : started s (s.setDriver .readHello) = none := started_of_ne (by simp [hd])
    refine .quiet rfl hstart rfl (by simp [hd, DriverPc.inSession]) ?_ rfl rfl id
    simp [Client.asking, hd, DriverPc.request]
  | helloErr hd | helloReadErr hd =>
    exact .gone rfl (started_of_ne (by simp [hd])) fun l _ => completes_of_ne (by simp [hd]) l
  | hold hd hpoll => exact .hold hs (started_of_eq rfl) (lineRead_hold hpoll) rfl rfl hpoll
  | @helloLine l st hd hpoll =>
    -- before the session no request waits for a reply, so the hello's answers none
    have hpend : s.pending = none := hI.pending (by simp [hd])
    have hne : s.driver ≠ .session := by simp [hd]
    have hidle : s.asking = [] := by
      unfold Client.asking
      rw [hd, hpend]
      rfl
    rcases helloLine_socket env (s.setStream st) l with
      hgone | ⟨ev, proto, version, core, rpcPort, hev, hhello, hl, he⟩
    · exact .gone hgone (started_of_ne hne) fun l _ => completes_of_ne hne l
    · obtain ⟨b, bs, rfl⟩ := List.exists_cons_of_ne_nil hl
      rw [he]
      exact .greeted rfl (started_of_ne hne) (lineRead_of_poll hpoll) hpoll (completes_of_ne hne _)
        hev ⟨proto, version, core, rpcPort, hhello⟩ (by rw [hd]; rfl) hidle rfl
  | @sessionLine l st hd hpoll =>
    rcases sessionLine_socket env (s.setStream st) l with
      ⟨hgone, hnone⟩ | ⟨hl, hd', hst, hp⟩
    -- the session has ended on this line: it had nothing to complete
    · refine .gone hgone (started_to fun req hw => ?_) fun l' hread => ?_
      · unfold Client.hasSocket at hgone
        rw [hw] at hgone
        cases hgone
      · cases l with
        | nil => rw [lineRead_nil hpoll] at hread; cases hread
        | cons b bs =>
          rw [lineRead_of_poll hpoll] at hread
          cases hread
          unfold completes
          rw [hd, hnone.resolve_left (List.cons_ne_nil _ _)]
          rfl
    · obtain ⟨b, bs, rfl⟩ := List.exists_cons_of_ne_nil hl
      have hd'' : ((s.setStream st).sessionLine env (b :: bs)).driver = .session := hd'.trans hd
      refine .line ?_ (started_to fun req hw => DriverPc.noConfusion (hd''.symm.trans hw))
        (lineRead_of_poll hpoll) (by rw [hst]; exact hpoll)
        hd hd'' ?_
      · unfold Client.hasSocket
        rw [hd'']
      · rw [Client.asking_session hd'', Client.asking_session hd, hp]
        split <;> rfl
  | fill hd hfill =>
    obtain ⟨hun, hheld⟩ := Stream.fill_eq hfill
    have hclosed : _ := Stream.closed_of_fill hfill
    exact .quiet hs (started_of_eq rfl) rfl rfl rfl hheld hun fun hc => hclosed.trans hc
  | sessionReadErr hd =>
    exact .gone rfl (started_to (by simp)) fun l hread => by cases hread
  | @recv req queue hd hq hp =>
    have hstart : started s (Client.setDriver
        (Client.setStream { s with queue := queue } s.stream.cut) (.writing req)) = some req := by
      simp [started, hd]
    refine .ask rfl hstart rfl (by rw [hd]; rfl) rfl ?_ ?_ rfl
    · rw [Client.asking_session hd, hp]
      rfl
    · simp [Client.asking, DriverPc.request, hp]
  | @recvBusy req other queue hd hq hp =>
    refine .refuse hs (started_of_eq rfl) rfl rfl rfl rfl
  | @wrote req res hd hres =>
    have hpend : s.pending = none := hI.pending (by simp [hd])
    have hstart : started s (Client.setDriver { s with
        pending := some req, written := s.written ++ [(req.id, req.cmd)] } .session) = none :=
      started_of_ne (by simp [hd])
    refine .quiet rfl hstart rfl (by simp [hd, DriverPc.inSession]) ?_ rfl rfl id
    simp [Client.asking, hd, hpend, DriverPc.request]
  | writeErr hd hres =>
    exact .gone rfl (started_of_ne (by simp [hd])) fun l hread => by cases hread
  | shutdown hsd hd hw hd' =>
    exact .gone (by simp [Client.hasSocket]) (started_of_ne hd) fun l hread => by cases hread
  | shutdownSession hsd hd =>
    exact .gone (by simp [Client.hasSocket]) (started_to (by simp)) fun l hread => by cases hread
  | arrive => exact absurd rfl (ha _)
  | hangup hsock => exact .quiet hs (started_of_eq rfl) rfl rfl rfl rfl rfl fun _ => rfl

/-- Only `UnixStream::connect` opens a socket. -/
theorem Move.no_socket {a : Action} (h : Move env s a s') (ha : a ≠ .connect true)
    (hs : s.hasSocket = false) : s'.hasSocket = false := by
  have hne : ∀ pc, s.driver = pc → (pc = .sendHello ∨ pc = .readHello ∨ pc = .session ∨
      ∃ req, pc = .writing req) → False := by
    rintro pc hd (rfl | rfl | rfl | ⟨req, rfl⟩) <;>
    · unfold Client.hasSocket at hs
      rw [hd] at hs
      cases hs
  cases h with
  | connect => exact absurd rfl ha
  | hello hd | helloErr hd => exact (hne _ hd (.inl rfl)).elim
  | helloLine hd | helloReadErr hd => exact (hne _ hd (.inr (.inl rfl))).elim
  | sessionLine hd | sessionReadErr hd | recv hd | recvBusy hd | shutdownSession _ hd =>
    exact (hne _ hd (.inr (.inr (.inl rfl)))).elim
  | wrote hd | writeErr hd => exact (hne _ hd (.inr (.inr (.inr ⟨_, rfl⟩)))).elim
  | shutdown => simp [Client.hasSocket]
  | connectErr | takeover | reconnect | elapse => rfl
  | _ => exact hs

end EasyTierMac.Bridge
