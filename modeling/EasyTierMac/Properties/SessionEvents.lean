import EasyTierMac.Bridge.Runs

/-!
# The client session and the lines it is sent

`run_session` starts a new `read_line` future in every turn of its loop, in a `select!`
with the request channel. A request that arrives while the future holds the first part
of a line drops the future and that part with it: the rest of the line is then read as a
line of its own, and the event is gone (`event_lost`).

Between two futures the session is a `Framing.Reader` of its stream. As long as a request
is taken between lines only, it dispatches what the supervisor sent: every line once, in
order, and all of them once it has read everything.
-/

namespace EasyTierMac.Bridge

open Rust (Text fromUtf8)
open Framing (IsFrame Reader Faithful frames)

variable {env : ClientEnv} {s s' : Client}

/-! ## What the supervisor sends -/

/-- A newline-terminated line of UTF-8 text. -/
structure WireLine where
  bytes : List UInt8
  text : Text
  framed : IsFrame 0x0A bytes
  utf8 : fromUtf8 bytes = some text

/-- What a line stands for, if `decode_event` accepts it. -/
def WireLine.event (codec : Codec) (l : WireLine) : Option Event :=
  (decodeEvent codec l.text).toOption

theorem WireLine.lineEvent_bytes (codec : Codec) (l : WireLine) :
    lineEvent codec l.bytes = l.event codec := by
  unfold lineEvent WireLine.event
  rw [l.utf8]
  rfl

/-! ## The step condition -/

/-- A request is taken between lines only: the `read_line` future that loses to it holds
no part of a line. -/
def CutsNoLine (s : Client) (a : Action) : Prop := a = .recv → s.stream.held = []

/-- The stream does not end in the middle of a line. -/
def EndsWithLine (s : Client) (a : Action) : Prop :=
  a = .poll → s.stream.unread = [] → s.stream.closed = true → s.stream.held = []

def LinesIntact (s : Client) (a : Action) : Prop := CutsNoLine s a ∧ EndsWithLine s a

instance : ∀ s a, Decidable (LinesIntact s a) := fun s a =>
  inferInstanceAs (Decidable ((a = .recv → s.stream.held = []) ∧
    (a = .poll → s.stream.unread = [] → s.stream.closed = true → s.stream.held = [])))

/-! ## The session as a reader -/

/-- The session as a reader of its stream. -/
def Client.reader (s : Client) : Reader UInt8 :=
  ⟨s.stream.held, s.stream.unread, s.log.lines, s.log.stream⟩

/-- The session has read, and dispatched, the lines at the front of its stream. -/
structure Following (env : ClientEnv) (s : Client) : Prop where
  reader : s.driver.inSession = true → Faithful 0x0A s.reader
  framed : ∀ l ∈ s.log.lines, IsFrame 0x0A l
  stream : s.log.lines.flatten <+: s.log.stream
  dispatched : s.log.dispatched = s.log.lines.filterMap (lineEvent env.codec)

namespace Following

/-- The step is not part of a session. -/
theorem of_not_inSession (hF : Following env s) (hlog : s'.log = s.log)
    (hd : s'.driver.inSession = false) : Following env s' where
  reader h := absurd (hd.symm.trans h) Bool.false_ne_true
  framed := hlog ▸ hF.framed
  stream := hlog ▸ hF.stream
  dispatched := hlog ▸ hF.dispatched

/-- The session goes on where it was. -/
theorem of_reader_eq (hF : Following env s) (hlog : s'.log = s.log)
    (hd : s'.driver.inSession = true → s.driver.inSession = true)
    (hheld : s'.stream.held = s.stream.held) (hun : s'.stream.unread = s.stream.unread) :
    Following env s' where
  reader h := by
    have hR := hF.reader (hd h)
    unfold Client.reader at hR ⊢
    rw [hlog, hheld, hun]
    exact hR
  framed := hlog ▸ hF.framed
  stream := hlog ▸ hF.stream
  dispatched := hlog ▸ hF.dispatched

end Following

/-! ## A line that has been read -/

/-- The session takes a line on record, and dispatches its event. -/
theorem sessionLine_eq (env : ClientEnv) (s : Client) {l : List UInt8} (hl : l ≠ []) :
    (s.sessionLine env l).log = { s.log with
      lines := s.log.lines ++ [l]
      dispatched := s.log.dispatched ++ (lineEvent env.codec l).toList } ∧
    (s.sessionLine env l).stream = s.stream := by
  unfold Client.sessionLine lineEvent
  cases l with
  | nil => exact absurd rfl hl
  | cons b bs =>
    dsimp only
    cases hutf : fromUtf8 (b :: bs) with
    | none => simp
    | some text =>
      cases hev : decodeEvent env.codec text with
      | error e => simp [hev, Except.toOption]
      | ok ev =>
        simp only [Option.bind_some, hev, Except.toOption]
        unfold Client.dispatch Client.complete
        dsimp only
        split <;> simp

namespace Following

/-- The session reads a line. -/
theorem line (hF : Following env s) {l : List UInt8} {st : Stream}
    (hd : s.driver.inSession = true) (hframe : IsFrame 0x0A l)
    (hun : s.stream.unread = l ++ st.unread) (hheld : st.held = []) :
    Following env ((s.setStream st).sessionLine env (s.stream.held ++ l)) := by
  have hR := hF.reader hd
  have hstep : Faithful 0x0A
      (⟨[], st.unread, s.log.lines ++ [s.stream.held ++ l], s.log.stream⟩ : Reader UInt8) :=
    hR.step (b := .frame) (fun h => nomatch h) (.frame hun hframe)
  have hwhole : IsFrame 0x0A (s.stream.held ++ l) := hframe.append hR.held
  obtain ⟨hlog, hstream⟩ := sessionLine_eq env (s.setStream st) hwhole.ne_nil
  constructor
  · intro _
    unfold Client.reader
    rw [hlog, hstream, show (s.setStream st).stream.held = [] from hheld]
    exact hstep
  · rw [hlog]
    exact hstep.out
  · rw [hlog]
    exact ⟨_, hstep.stream.symm⟩
  · rw [hlog]
    show s.log.dispatched ++ _ = (s.log.lines ++ [s.stream.held ++ l]).filterMap _
    rw [hF.dispatched, List.filterMap_append]
    cases hev : lineEvent env.codec (s.stream.held ++ l) <;> simp [hev]

/-- The session reads a part of a line. -/
theorem hold (hF : Following env s) {x : List UInt8} {st : Stream} (hx : 0x0A ∉ x)
    (hun : s.stream.unread = x ++ st.unread) (hheld : st.held = s.stream.held ++ x) :
    Following env (s.setStream st) := by
  refine ⟨fun hd => ?_, hF.framed, hF.stream, hF.dispatched⟩
  have hR := hF.reader hd
  have hstep : Faithful 0x0A
      (⟨s.stream.held ++ x, st.unread, s.log.lines, s.log.stream⟩ : Reader UInt8) :=
    hR.step (b := .hold) (fun h => nomatch h) (.hold hun hx)
  unfold Client.reader
  rw [show (s.setStream st).stream.held = s.stream.held ++ x from hheld]
  exact hstep

/-- More of the stream arrives. -/
theorem arrive (hF : Following env s) (bytes : List UInt8) :
    Following env { s with
      stream := { s.stream with sock := s.stream.sock ++ bytes }
      log := if s.driver.inSession then { s.log with stream := s.log.stream ++ bytes } else s.log } := by
  by_cases hd : s.driver.inSession = true
  · have hR := hF.reader hd
    have hstep : Faithful 0x0A (⟨s.stream.held, s.stream.unread ++ bytes, s.log.lines,
        s.log.stream ++ bytes⟩ : Reader UInt8) :=
      hR.step (b := .arrive bytes) (fun h => nomatch h) .arrive
    rw [if_pos hd]
    refine ⟨fun _ => ?_, hF.framed, ⟨_, hstep.stream.symm⟩, hF.dispatched⟩
    unfold Client.reader Stream.unread
    dsimp only
    rw [← List.append_assoc]
    exact hstep
  · rw [if_neg hd]
    exact hF.of_not_inSession rfl (eq_false_of_ne_true hd)

/-- A session begins. -/
theorem start (version : String) (core : CoreState) (rpcPort : Option UInt16)
    (hheld : s.stream.held = []) :
    Following env (s.enterSession env version core rpcPort) where
  reader _ := by
    have hstart := Faithful.start (d := (0x0A : UInt8)) s.stream.unread
    unfold Client.reader
    simp only [Client.enterSession, Client.emit, hheld]
    exact hstart
  framed _ h := absurd h List.not_mem_nil
  stream := List.nil_prefix
  dispatched := rfl

theorem step (hF : Following env s) {a : Action} (hp : LinesIntact s a) (h : Move env s a s') :
    Following env s' := by
  cases h with
  | hold hd hpoll =>
    rcases Stream.poll_cases hpoll with ⟨-, -, hline, -⟩ | ⟨l, -, hline, -⟩ | ⟨x, hx, -, hun, hheld⟩
    · cases hline
    · cases hline
    · exact hF.hold hx hun hheld
  | @sessionLine l st hd hpoll =>
    have hin : s.driver.inSession = true := by rw [hd]; rfl
    rcases Stream.poll_cases hpoll with ⟨hun, hclosed, hline, -⟩ | ⟨l', hframe, hline, hun, hheld⟩ |
      ⟨x, -, hline, -⟩
    · -- the end of the stream, between lines
      injection hline with hline
      have hl : l = [] := hline ▸ hp.2 rfl hun hclosed
      rw [hl]
      exact hF.of_not_inSession (by simp [Client.sessionLine])
        (by simp [Client.sessionLine, DriverPc.inSession])
    · injection hline with hline
      rw [hline]
      exact hF.line hin hframe hun hheld
    · cases hline
  -- a session starts with its hello, and with nothing of an earlier one
  | @helloLine l st hd hpoll =>
    rcases helloLine_cases env (s.setStream st) l with he | ⟨v, c, p, he⟩ | ⟨o, he⟩ | ⟨c, m, he⟩
    · rw [he]
      exact hF.of_not_inSession (by simp) (by simp [DriverPc.inSession])
    · rw [he]
      exact start v c p (Stream.held_of_poll hpoll)
    · rw [he]
      exact hF.of_not_inSession (by simp) (by simp [DriverPc.inSession])
    · rw [he]
      exact hF.of_not_inSession (by simp) (by simp [DriverPc.inSession])
  | fill hd hfill =>
    obtain ⟨hun, hheld⟩ := Stream.fill_eq hfill
    exact hF.of_reader_eq rfl (fun h => h) hheld hun
  | arrive hsock hopen => exact hF.arrive _
  | hangup => exact hF.of_reader_eq rfl (fun h => h) rfl rfl
  -- leaving the read to write a command would lose the part of a line that is held
  | recv hd hq hpend =>
    have hheld : s.stream.held = [] := hp.1 rfl
    refine hF.of_reader_eq rfl (fun _ => by rw [hd]; rfl) ?_ rfl
    exact hheld.symm
  | recvBusy hd hq hpend =>
    have hheld : s.stream.held = [] := hp.1 rfl
    refine hF.of_reader_eq rfl (fun _ => by rw [hd]; rfl) ?_ rfl
    exact hheld.symm
  | wrote hd => exact hF.of_reader_eq rfl (fun _ => by rw [hd]; rfl) rfl rfl
  | call | refused | send | receive | lost | timeout | requestShutdown | requestTakeover
  | requestReconnect | tick => exact hF.of_reader_eq rfl (fun h => h) rfl rfl
  | _ => exact hF.of_not_inSession (by simp) (by simp [DriverPc.inSession])

theorem of_reachable (h : (client env).ReachableBy LinesIntact s) : Following env s := by
  refine h.invariant ?_ fun _ hF hp hs => hF.step hp (step_move hs)
  exact ⟨fun h => (nomatch h), fun _ h => absurd h List.not_mem_nil, List.nil_prefix, rfl⟩

end Following

/-! ## The events of a session -/

/-- The bytes of the lines, one after the other. -/
def wire (lines : List WireLine) : List UInt8 := (lines.map WireLine.bytes).flatten

theorem isFrame_of_mem {lines : List WireLine} :
    ∀ f ∈ lines.map WireLine.bytes, IsFrame 0x0A f := by
  intro f hf
  obtain ⟨l, -, rfl⟩ := List.mem_map.mp hf
  exact l.framed

theorem filterMap_bytes (codec : Codec) (lines : List WireLine) :
    (lines.map WireLine.bytes).filterMap (lineEvent codec) =
      lines.filterMap (WireLine.event codec) := by
  rw [List.filterMap_map]
  exact List.filterMap_congr fun l _ => l.lineEvent_bytes codec

/-- **No event is lost.** Whatever lines the supervisor sends, and however their bytes
arrive: as long as requests are taken between lines only, the session has read the first
`k` of these lines, each as it was sent, and dispatched their events in order. Once it
has read everything, it has dispatched them all. -/
theorem no_event_lost (h : (client env).ReachableBy LinesIntact s) {lines : List WireLine}
    (hsent : s.log.stream <+: wire lines) :
    ∃ k ≤ lines.length, s.log.lines = (lines.take k).map WireLine.bytes ∧
      s.log.dispatched = (lines.take k).filterMap (WireLine.event env.codec) ∧
      (s.driver.inSession = true → s.stream.unread = [] → s.log.stream = wire lines →
        k = lines.length) := by
  have hF := Following.of_reachable h
  -- the lines that were read are a prefix of the lines that were sent
  have hpre : s.log.lines <+: lines.map WireLine.bytes := by
    obtain ⟨x, hx⟩ := hF.stream.trans hsent
    have hcut := Framing.frames_flatten_append hF.framed x
    rw [hx, wire, Framing.frames_flatten isFrame_of_mem] at hcut
    exact ⟨_, (congrArg Prod.fst hcut).symm⟩
  have htake := List.prefix_iff_eq_take.mp hpre
  rw [← List.map_take] at htake
  refine ⟨s.log.lines.length, ?_, htake, ?_, ?_⟩
  · simpa using hpre.length_le
  · have hevents := congrArg (List.filterMap (lineEvent env.codec)) htake
    rw [filterMap_bytes] at hevents
    rw [hF.dispatched]
    exact hevents
  · intro hd hun hall
    have hframes := (hF.reader hd).frames_eq hun
    rw [show s.reader.stream = wire lines from hall, wire,
      Framing.frames_flatten isFrame_of_mem] at hframes
    have hout : lines.map WireLine.bytes = s.log.lines := congrArg Prod.fst hframes
    rw [← hout, List.length_map]

namespace Trial

/-- The `kicked` line of the supervisor. -/
def kickedLine : WireLine where
  bytes := line kickedText
  text := kickedText ++ ['\n']
  framed := ⟨kickedText.map fun ch => UInt8.ofNat ch.toNat, by decide, rfl⟩
  utf8 := by decide

/-- A request is taken when the session has read the first five bytes of `kicked`. -/
def requestInside : List Action :=
  [connected, [.arrive ((line kickedText).take 5), .fill 5, .poll],
    [.call .status, .send 0, .recv, .wrote .ok],
    [.arrive ((line kickedText).drop 5), .fill ((line kickedText).length - 5), .poll]].flatten

/-- A request is taken before the session has read anything of `kicked`. -/
def requestBefore : List Action :=
  [connected, [.arrive (line kickedText)], [.call .status, .send 0, .recv, .wrote .ok],
    [.fill (line kickedText).length, .poll]].flatten

end Trial

/-- The supervisor sends `kicked`, the session reads all of it, and dispatches nothing:
a request was taken when it had read five bytes of the line. -/
theorem event_lost : ∃ s, (client Trial.env).Reachable s ∧
    s.log.stream = wire [Trial.kickedLine] ∧ s.driver.inSession = true ∧ s.stream.unread = [] ∧
    Trial.kickedLine.event Trial.env.codec = some .kicked ∧ s.log.dispatched = [] := by
  obtain ⟨s, hs, hp⟩ := exists_reachableBy Trial.env (fun _ _ => True) Trial.requestInside
    (fun s => decide (s.log.stream = Trial.kickedLine.bytes ∧ s.driver.inSession = true ∧
      s.stream.unread = [] ∧ s.log.dispatched = [])) (by decide +kernel)
  obtain ⟨hstream, hd, hun, hdisp⟩ := of_decide_eq_true hp
  exact ⟨s, hs, by rw [hstream]; rfl, hd, hun, by decide, hdisp⟩

theorem no_event_lost_between : ∃ s, (client Trial.env).ReachableBy LinesIntact s ∧
    s.written = [(0, .status)] ∧ s.log.dispatched = [.kicked] ∧
    ∃ k ≤ 1, s.log.lines = ([Trial.kickedLine].take k).map WireLine.bytes := by
  obtain ⟨s, hs, hp⟩ := exists_reachableBy Trial.env LinesIntact Trial.requestBefore
    (fun s => decide (s.written = [(0, .status)] ∧ s.log.dispatched = [.kicked] ∧
      s.log.stream = Trial.kickedLine.bytes)) (by decide +kernel)
  obtain ⟨hw, hdisp, hstream⟩ := of_decide_eq_true hp
  have hsent : s.log.stream <+: wire [Trial.kickedLine] := by
    rw [hstream]
    exact ⟨[], rfl⟩
  obtain ⟨k, hk, hlines, -⟩ := no_event_lost hs hsent
  exact ⟨s, hs, hw, hdisp, k, hk, hlines⟩

end EasyTierMac.Bridge
