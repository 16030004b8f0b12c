import EasyTierMac.Bridge.Client

/-!
# What a step of the client can do

`step` inverted: one constructor for each way in which a step can go, with its guards
and the resulting state. `helloLine_cases` and `sessionLine_cases` say what becomes of a
line that has been read. Proofs about runs start from `step_move`.
-/

namespace EasyTierMac.Bridge

open Rust (Text fromUtf8)

inductive Move (env : ClientEnv) (s : Client) : Action → Client → Prop
  | call {kind : Kind} : Move env s (.call kind) (s.call kind)
  | refused {id : ReqId} (hpc : (s.callers id).pc = .sending) (hd : s.driver = .stopped) :
      Move env s (.send id) (s.setCaller id (.returned (.error "supervisor client stopped")))
  | send {id : ReqId} (hpc : (s.callers id).pc = .sending) (hd : s.driver ≠ .stopped)
      (hroom : s.queue.length < CHANNEL) :
      Move env s (.send id)
        ({ s with queue := s.queue ++ [(⟨id, (s.callers id).kind⟩ : Request)] }.setCaller id
          (.waiting (s.now + REQUEST_TIMEOUT)))
  | receive {id : ReqId} {deadline : Nat} {r : Reply} (hpc : (s.callers id).pc = .waiting deadline)
      (hslot : (s.callers id).slot = .filled r) :
      Move env s (.receive id) (s.setCaller id (.returned r))
  | lost {id : ReqId} {deadline : Nat} (hpc : (s.callers id).pc = .waiting deadline)
      (hslot : (s.callers id).slot = .dropped) :
      Move env s (.receive id)
        (s.setCaller id (.returned (.error "supervisor disconnected before reply")))
  | timeout {id : ReqId} {deadline : Nat} (hpc : (s.callers id).pc = .waiting deadline)
      (hslot : (s.callers id).slot = .empty) (hnow : deadline ≤ s.now) :
      Move env s (.timeout id) (s.setCaller id (.returned (.error "supervisor request timed out")))
  | connect (hd : s.driver = .connect) :
      Move env s (.connect true) ((s.setStream {}).setDriver .sendHello)
  | connectErr (hd : s.driver = .connect) : Move env s (.connect false) s.failed
  | hello (hd : s.driver = .sendHello) : Move env s (.hello true) (s.setDriver .readHello)
  | helloErr (hd : s.driver = .sendHello) : Move env s (.hello false) s.failed
  | hold {st : Stream} (hd : s.driver = .readHello ∨ s.driver = .session)
      (hpoll : s.stream.poll = some (none, st)) : Move env s .poll (s.setStream st)
  | helloLine {l : List UInt8} {st : Stream} (hd : s.driver = .readHello)
      (hpoll : s.stream.poll = some (some l, st)) :
      Move env s .poll ((s.setStream st).helloLine env l)
  | sessionLine {l : List UInt8} {st : Stream} (hd : s.driver = .session)
      (hpoll : s.stream.poll = some (some l, st)) :
      Move env s .poll ((s.setStream st).sessionLine env l)
  | fill {n : Nat} {st : Stream} (hd : s.driver = .readHello ∨ s.driver = .session)
      (hfill : s.stream.fill n = some st) : Move env s (.fill n) (s.setStream st)
  | helloReadErr (hd : s.driver = .readHello) : Move env s .readErr s.failed
  | sessionReadErr (hd : s.driver = .session) : Move env s .readErr s.disconnected
  | recv {req : Request} {queue : List Request} (hd : s.driver = .session)
      (hq : s.queue = req :: queue) (hp : s.pending = none) :
      Move env s .recv (({ s with queue := queue }.setStream s.stream.cut).setDriver (.writing req))
  | recvBusy {req other : Request} {queue : List Request} (hd : s.driver = .session)
      (hq : s.queue = req :: queue) (hp : s.pending = some other) :
      Move env s .recv (({ s with queue := queue }.setStream s.stream.cut).setSlot req
        (.filled (.error "another request is already in flight")))
  | wrote {req : Request} {res : Wrote} (hd : s.driver = .writing req) (hres : res.failure = none) :
      Move env s (.wrote res) ({ s with
        pending := some req
        written := s.written ++ [(req.id, req.cmd)] }.setDriver .session)
  | writeErr {req : Request} {res : Wrote} {msg : String} (hd : s.driver = .writing req)
      (hres : res.failure = some msg) :
      Move env s (.wrote res) (s.setSlot req (.filled (.error msg))).disconnected
  | shutdown (hs : s.shutdown = true) (hd : s.driver ≠ .session) (hw : ∀ req, s.driver ≠ .writing req)
      (hd' : s.driver ≠ .stopped) : Move env s .shutdown (Client.stop { s with shutdown := false })
  | shutdownSession (hs : s.shutdown = true) (hd : s.driver = .session) :
      Move env s .shutdown (Client.leaveSession { s with shutdown := false }).stop
  | takeover (hd : s.driver = .busy) (hp : s.takeover = true) :
      Move env s .takeover ({ s with takeover := false, nextTakeover := true }.setDriver .connect)
  | reconnect {due : Nat} (hd : s.driver = .pause due) (hp : s.reconnect = true) :
      Move env s .reconnect (Client.retry env { s with reconnect := false })
  | elapse {due : Nat} (hd : s.driver = .pause due) (hnow : due ≤ s.now) :
      Move env s .elapse (s.retry env)
  | requestShutdown : Move env s .requestShutdown { s with shutdown := true }
  | requestTakeover : Move env s .requestTakeover { s with takeover := true }
  | requestReconnect : Move env s .requestReconnect { s with reconnect := true }
  | arrive {bytes : List UInt8} (hsock : s.hasSocket = true) (hopen : s.stream.closed = false) :
      Move env s (.arrive bytes) { s with
        stream := { s.stream with sock := s.stream.sock ++ bytes }
        log := if s.driver.inSession then { s.log with stream := s.log.stream ++ bytes } else s.log }
  | hangup (hsock : s.hasSocket = true) :
      Move env s .hangup (s.setStream { s.stream with closed := true })
  | tick {d : Nat} : Move env s (.tick d) { s with now := s.now + d }

variable {env : ClientEnv} {s s' : Client}

/-! ## Callers -/

theorem send_move {id : ReqId} (h : s.send id = some s') : Move env s (.send id) s' := by
  unfold Client.send at h
  split at h
  · next hpc =>
    split at h
    · next hd => cases h; exact .refused hpc hd
    · next hd =>
      split at h
      · next hroom => cases h; exact .send hpc hd hroom
      · cases h
  · cases h

theorem receive_move {id : ReqId} (h : s.receive id = some s') : Move env s (.receive id) s' := by
  unfold Client.receive at h
  split at h
  · next hpc hslot => cases h; exact .receive hpc hslot
  · next hpc hslot => cases h; exact .lost hpc hslot
  · cases h

theorem timeout_move {id : ReqId} (h : s.timeout id = some s') : Move env s (.timeout id) s' := by
  unfold Client.timeout at h
  split at h
  · next hpc hslot =>
    split at h
    · next hnow => cases h; exact .timeout hpc hslot hnow
    · cases h
  · cases h

/-! ## The driver -/

theorem pollStep_move (h : s.pollStep env = some s') : Move env s .poll s' := by
  unfold Client.pollStep at h
  split at h
  · next line st hd hpoll =>
    cases h
    cases line with
    | none => exact .hold (.inl hd) hpoll
    | some l => exact .helloLine hd hpoll
  · next line st hd hpoll =>
    cases h
    cases line with
    | none => exact .hold (.inr hd) hpoll
    | some l => exact .sessionLine hd hpoll
  · cases h

theorem recvStep_move (h : s.recvStep = some s') : Move env s .recv s' := by
  unfold Client.recvStep at h
  split at h
  · next req queue hd hq =>
    cases h
    cases hp : s.pending with
    | none =>
      have hmove : Move env s .recv _ := .recv hd hq hp
      simpa [Client.setStream, hp] using hmove
    | some other =>
      have hmove : Move env s .recv _ := .recvBusy hd hq hp
      simpa [Client.setStream, hp] using hmove
  · cases h

theorem wroteStep_move {res : Wrote} (h : s.wroteStep res = some s') :
    Move env s (.wrote res) s' := by
  unfold Client.wroteStep at h
  split at h
  · next req hd =>
    cases h
    cases hres : res.failure with
    | none => exact .wrote hd hres
    | some msg => exact .writeErr hd hres
  · cases h

theorem shutdownStep_move (h : s.shutdownStep = some s') : Move env s .shutdown s' := by
  unfold Client.shutdownStep at h
  split at h
  · next hs =>
    dsimp only at h
    split at h
    all_goals first
      | (next hd => cases h; exact .shutdownSession hs hd)
      | (next hd => cases h; exact .shutdown hs (by simp [hd]) (by simp [hd]) (by simp [hd]))
      | cases h
  · cases h

/-- **Every step is one of the moves.** -/
theorem step_move {a : Action} (h : step env s a = some s') : Move env s a s' := by
  cases a with
  | call kind => cases h; exact .call
  | send id => exact send_move h
  | receive id => exact receive_move h
  | timeout id => exact timeout_move h
  | connect ok =>
    obtain ⟨hd, h⟩ := Option.ite_none_right_eq_some.mp h
    cases h
    cases ok with
    | true => exact .connect hd
    | false => exact .connectErr hd
  | hello ok =>
    obtain ⟨hd, h⟩ := Option.ite_none_right_eq_some.mp h
    cases h
    cases ok with
    | true => exact .hello hd
    | false => exact .helloErr hd
  | poll => exact pollStep_move h
  | fill n =>
    obtain ⟨hd, h⟩ := Option.ite_none_right_eq_some.mp h
    obtain ⟨st, hfill, rfl⟩ := Option.map_eq_some_iff.mp h
    exact .fill hd hfill
  | readErr =>
    simp only [step, Client.readErrStep] at h
    split at h
    · next hd => cases h; exact .helloReadErr hd
    · next hd => cases h; exact .sessionReadErr hd
    · cases h
  | recv => exact recvStep_move h
  | wrote res => exact wroteStep_move h
  | shutdown => exact shutdownStep_move h
  | takeover =>
    obtain ⟨⟨hd, hp⟩, h⟩ := Option.ite_none_right_eq_some.mp h
    cases h
    exact .takeover hd hp
  | reconnect =>
    simp only [step, Client.reconnectStep] at h
    split at h
    · next due hd =>
      obtain ⟨hp, h⟩ := Option.ite_none_right_eq_some.mp h
      cases h
      exact .reconnect hd hp
    · cases h
  | elapse =>
    simp only [step, Client.elapseStep] at h
    split at h
    · next due hd =>
      obtain ⟨hnow, h⟩ := Option.ite_none_right_eq_some.mp h
      cases h
      exact .elapse hd hnow
    · cases h
  | requestShutdown => cases h; exact .requestShutdown
  | requestTakeover => cases h; exact .requestTakeover
  | requestReconnect => cases h; exact .requestReconnect
  | arrive bytes =>
    obtain ⟨⟨hsock, hopen⟩, h⟩ := Option.ite_none_right_eq_some.mp h
    cases h
    exact .arrive hsock hopen
  | hangup =>
    obtain ⟨hsock, h⟩ := Option.ite_none_right_eq_some.mp h
    cases h
    exact .hangup hsock
  | tick d => cases h; exact .tick

/-! ## Lines -/

/-- What becomes of the reply to the hello. -/
theorem helloLine_cases (env : ClientEnv) (s : Client) (l : List UInt8) :
    s.helloLine env l = s.failed ∨
      (∃ version core rpcPort, s.helloLine env l = s.enterSession env version core rpcPort) ∨
      (∃ owner, s.helloLine env l =
        { s.emit [.busy owner] with nextTakeover := false }.setDriver .busy) ∨
      ∃ code msg, s.helloLine env l = (s.emit [.error code msg]).failed := by
  unfold Client.helloLine
  split
  · exact .inl rfl
  · exact .inl rfl
  · split
    · exact .inr (.inl ⟨_, _, _, rfl⟩)
    · exact .inr (.inr (.inl ⟨_, rfl⟩))
    · exact .inr (.inr (.inr ⟨_, _, rfl⟩))
    · exact .inl rfl

/-- The reply to the hello is for no caller. -/
theorem helloLine_callers (env : ClientEnv) (s : Client) (l : List UInt8) :
    (s.helloLine env l).callers = s.callers ∧ (s.helloLine env l).nCalls = s.nCalls := by
  rcases helloLine_cases env s l with he | ⟨v, c, p, he⟩ | ⟨o, he⟩ | ⟨c, m, he⟩
  all_goals
    rw [he]
    exact ⟨rfl, rfl⟩

/-- The event of a line that `run_session` has read. -/
def lineEvent (codec : Codec) (bytes : List UInt8) : Option Event :=
  (fromUtf8 bytes).bind fun text => (decodeEvent codec text).toOption

/-- What becomes of a line of the session. -/
theorem sessionLine_cases (env : ClientEnv) (s : Client) (l : List UInt8) :
    ∃ log : SessionLog, s.sessionLine env l = Client.disconnected { s with log := log } ∨
      s.sessionLine env l = { s with log := log } ∨
      ∃ ev, lineEvent env.codec l = some ev ∧
        s.sessionLine env l = Client.dispatch { s with log := log } ev := by
  unfold Client.sessionLine lineEvent
  split
  · exact ⟨s.log, .inl rfl⟩
  · refine ⟨{ s.log with lines := s.log.lines ++ [l] }, ?_⟩
    dsimp only
    cases fromUtf8 l with
    | none => exact .inl rfl
    | some text =>
      dsimp only [Option.bind_some]
      cases decodeEvent env.codec text with
      | error e => exact .inr (.inl rfl)
      | ok ev => exact .inr (.inr ⟨ev, rfl, rfl⟩)

/-! ## What the updates leave alone -/

/-- Dropping requests changes their callers' channels. -/
theorem Client.dropAll_eq (reqs : List Request) (s : Client) :
    ∃ callers, Client.dropAll reqs s = { s with callers := callers } := by
  induction reqs generalizing s with
  | nil => exact ⟨s.callers, rfl⟩
  | cons req reqs ih =>
    obtain ⟨callers, he⟩ := ih (s.setSlot req .dropped)
    exact ⟨callers, he⟩

section

variable (reqs : List Request) (s : Client)

@[simp] theorem Client.dropAll_driver : (Client.dropAll reqs s).driver = s.driver := by
  obtain ⟨callers, he⟩ := Client.dropAll_eq reqs s
  rw [he]

@[simp] theorem Client.dropAll_nextTakeover :
    (Client.dropAll reqs s).nextTakeover = s.nextTakeover := by
  obtain ⟨callers, he⟩ := Client.dropAll_eq reqs s
  rw [he]

@[simp] theorem Client.dropAll_stream : (Client.dropAll reqs s).stream = s.stream := by
  obtain ⟨callers, he⟩ := Client.dropAll_eq reqs s
  rw [he]

@[simp] theorem Client.dropAll_pending : (Client.dropAll reqs s).pending = s.pending := by
  obtain ⟨callers, he⟩ := Client.dropAll_eq reqs s
  rw [he]

@[simp] theorem Client.dropAll_queue : (Client.dropAll reqs s).queue = s.queue := by
  obtain ⟨callers, he⟩ := Client.dropAll_eq reqs s
  rw [he]

@[simp] theorem Client.dropAll_nCalls : (Client.dropAll reqs s).nCalls = s.nCalls := by
  obtain ⟨callers, he⟩ := Client.dropAll_eq reqs s
  rw [he]

@[simp] theorem Client.dropAll_takeover : (Client.dropAll reqs s).takeover = s.takeover := by
  obtain ⟨callers, he⟩ := Client.dropAll_eq reqs s
  rw [he]

@[simp] theorem Client.dropAll_written : (Client.dropAll reqs s).written = s.written := by
  obtain ⟨callers, he⟩ := Client.dropAll_eq reqs s
  rw [he]

@[simp] theorem Client.dropAll_log : (Client.dropAll reqs s).log = s.log := by
  obtain ⟨callers, he⟩ := Client.dropAll_eq reqs s
  rw [he]

end

theorem Client.setSlot_pc (s : Client) (req : Request) (slot : Slot) (id : ReqId) :
    ((s.setSlot req slot).callers id).pc = (s.callers id).pc := by
  by_cases hid : id = req.id
  · simp [Client.setSlot, Client.modCaller, hid]
  · simp [Client.setSlot, Client.modCaller, hid]

/-- `dispatch_event` leaves the driver and the channel alone, and moves no caller. -/
theorem Client.dispatch_eq (s : Client) (ev : Event) :
    ∃ callers pending events log,
      s.dispatch ev =
        { s with callers := callers, pending := pending, events := events, log := log } ∧
      ∀ id, (callers id).pc = (s.callers id).pc := by
  unfold Client.dispatch Client.complete
  dsimp only
  split
  · exact ⟨_, _, _, _, rfl, fun id => s.setSlot_pc _ _ id⟩
  · exact ⟨_, _, _, _, rfl, fun id => rfl⟩

/-- What a poll of `read_line` takes from the stream: nothing at its end, the rest of a
line, or a part of one. -/
theorem Stream.poll_cases {st st' : Stream} {line : Option (List UInt8)}
    (h : st.poll = some (line, st')) :
    (st.unread = [] ∧ st.closed = true ∧ line = some st.held ∧ st'.held = []) ∨
      (∃ l, Framing.IsFrame 0x0A l ∧ line = some (st.held ++ l) ∧ st.unread = l ++ st'.unread ∧
        st'.held = []) ∨
      ∃ x, 0x0A ∉ x ∧ line = none ∧ st.unread = x ++ st'.unread ∧ st'.held = st.held ++ x := by
  unfold Stream.poll at h
  split at h
  · next hbuf =>
    obtain ⟨⟨hsock, hclosed⟩, h⟩ := Option.ite_none_right_eq_some.mp h
    cases h
    exact .inl ⟨by simp [Stream.unread, hbuf, hsock], hclosed, rfl, rfl⟩
  · split at h
    · next l r hsplit =>
      cases h
      obtain ⟨hframe, hbuf⟩ := Framing.isFrame_of_splitAfter hsplit
      refine .inr (.inl ⟨l, hframe, rfl, ?_, rfl⟩)
      show st.buf ++ st.sock = l ++ (r ++ st.sock)
      rw [hbuf, List.append_assoc]
    · next hsplit =>
      cases h
      exact .inr (.inr ⟨st.buf, Framing.not_mem_of_splitAfter hsplit, rfl, rfl, rfl⟩)

/-- A `read_line` future that completes holds nothing any more. -/
theorem Stream.held_of_poll {st st' : Stream} {l : List UInt8}
    (h : st.poll = some (some l, st')) : st'.held = [] := by
  rcases Stream.poll_cases h with ⟨-, -, -, hheld⟩ | ⟨l', -, -, -, hheld⟩ | ⟨x, -, hline, -⟩
  · exact hheld
  · exact hheld
  · cases hline

/-- Reading from the socket moves bytes and loses none. -/
theorem Stream.fill_eq {st st' : Stream} {n : Nat} (h : st.fill n = some st') :
    st'.unread = st.unread ∧ st'.held = st.held := by
  unfold Stream.fill at h
  obtain ⟨⟨hbuf, -, -⟩, h⟩ := Option.ite_none_right_eq_some.mp h
  cases h
  refine ⟨?_, rfl⟩
  show st.sock.take n ++ st.sock.drop n = st.buf ++ st.sock
  rw [List.take_append_drop, hbuf]
  rfl

attribute [simp] Client.modCaller Client.setCaller Client.setSlot Client.setDriver
  Client.setStream Client.emit Client.goPause Client.failed Client.stop Client.dropPending
  Client.leaveSession Client.disconnected Client.enterSession Client.retry Client.call

end EasyTierMac.Bridge
