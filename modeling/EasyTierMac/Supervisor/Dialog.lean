import EasyTierMac.Supervisor.Lines
import Mathlib.Data.List.Forall2

/-!
# What a connection reads, does and writes

`hearing` is the supervisor with a record for each connection: the bytes that arrived, the
bytes that its reads returned, in whatever pieces, and what its command loop set about
with each line it took (`Began`). The record of what was begun is read off the thread, not
off the lines: it accept where the thread went from the top of the loop.

`Dialog` follows a connection from its first byte to the end of its loop. A step of its own
thread keeps it (`ConnMove.dialog`); the steps of all others touch neither what it has read
nor what it wrote, pushes apart (`Dialog.keep`).
-/

namespace EasyTierMac.Supervisor

open Function (update)
open Rust (Text trim)
open Transition (System)

/-! ## What the command loop does about a line -/

/-- What the command loop sets about. -/
inductive Began
  | start
  | status
  | stop
  /-- Only an answer: the line has no command for it. -/
  | answer (ev : Event)
  deriving DecidableEq

/-- What the line asks of the command loop. A blank line asks nothing. -/
def asked (env : Env) (l : Text) : Option Began :=
  if (trim l).isEmpty then none
  else match decodeCmd env.fromStr l with
    | .ok (.hello ..) => some (.answer (.error "bad_proto" "duplicate hello"))
    | .ok .start => some .start
    | .ok .status => some .status
    | .ok .stop => some .stop
    | .error e => some (.answer (.error "bad_request" e))

/-- The event is a reply to what was begun. -/
def Began.Answers : Began → Event → Prop
  | .start, ev => (∃ pid port, ev = .coreStarted pid port) ∨ ∃ msg, ev = .error "spawn_failed" msg
  | .status, ev => ∃ core pid port, ev = .status core pid port
  | .stop, ev => ev = .coreStopped "requested" ∨ ev = .coreStopped "already_stopped"
  | .answer ev', ev => ev = ev'

/-- Where the thread goes from the top of the loop. -/
def ConnPc.began : ConnPc → Option Began
  | .startLock => some .start
  | .statusSnap => some .status
  | .stopLock .requested => some .stop
  | .reply l => some (.answer l.ev)
  | _ => none

/-- The thread is busy with `b`. -/
def Began.Busy (b : Began) : ConnPc → Prop
  | .startLock | .spawnMonitor _ | .upHook _ => b = .start
  | .statusSnap => b = .status
  | .stopLock .requested | .stopWait .requested _ | .stopHook .requested _ => b = .stop
  | .reply l => b.Answers l.ev
  | _ => False

/-! ## The record -/

structure Heard where
  /-- The bytes that arrived. -/
  arrived : List UInt8 := []
  /-- The bytes that the reads of the connection returned. -/
  input : List UInt8 := []
  began : List Began := []
  /-- A read of the command loop failed. -/
  failed : Bool := false

/-- What a step of the connection's own thread adds to its record. -/
def Heard.own (env : Env) (s : Sys) (c : ConnId) (ans : Answer) (h : Heard) : Heard :=
  match (s.conns c).pc, ans with
  | .readHello, .refill n | .loop, .refill n =>
    { h with input := h.input ++ (s.conns c).sock.take n }
  | .loop, .failed => { h with failed := true }
  | .loop, _ =>
    let began := (s.connStep env c ans).bind fun s' => (s'.conns c).pc.began
    { h with began := h.began ++ began.toList }
  | _, _ => h

/-- What a step adds to the records. -/
def noteHeard (env : Env) (s : Sys) (a : Action) (heard : ConnId → Heard) : ConnId → Heard :=
  match a with
  | .conn c ans => update heard c ((heard c).own env s c ans)
  | .arrive c bytes => update heard c { heard c with arrived := (heard c).arrived ++ bytes }
  | .accept _ => update heard s.nConns {}
  | _ => heard

/-- The supervisor, with a record of what each connection reads and does. -/
def hearing (env : Env) : System (Sys × (ConnId → Heard)) Action :=
  (supervisor env).recording (fun _ => {}) (noteHeard env)

theorem reachable_of_hearing {env : Env} {p : Sys × (ConnId → Heard)}
    (h : (hearing env).Reachable p) : (supervisor env).Reachable p.1 :=
  System.ReachableBy.of_recording (P := fun _ _ => True) h

/-! ## The course of a connection -/

/-- What was written to the connection, pushes apart. -/
def Conn.wrote (k : Conn) : List Event := (k.out.map Line.ev).filter fun ev => !ev.isPush

/-- The stream of the connection ends after what it has read. -/
def Conn.eof (k : Conn) : Bool := k.closed && k.sock.isEmpty

/-- The line is a hello that is accepted. -/
def SaysHello (env : Env) (l : Text) : Prop :=
  ∃ takeover, decodeCmd env.fromStr l = .ok (.hello PROTO_VERSION takeover)

/-- The hello and the lines `ls` have been read and dispatched, and `rest` is left of the
input. The hello was answered, and `replies` were written after that. -/
structure Log (env : Env) (k : Conn) (h : Heard) (ls : List Text) (rest : List UInt8)
    (replies : List Event) : Prop where
  read : ∃ hello, SaysHello env hello ∧ ReadOff h.input (hello :: ls) rest
  began : h.began = ls.filterMap (asked env)
  wrote : ∃ greet, greet.isHello = true ∧ k.wrote = greet :: replies

/-- Past `read_hello`, and not turned away. -/
def ConnPc.greets : ConnPc → Bool
  | .lease _ | .kickWrite _ | .kickShutdown _ | .helloSnap | .helloWrite _ => true
  | _ => false

/-- How far a connection is. -/
inductive Dialog (env : Env) (k : Conn) (h : Heard) : Prop
  | screening (pc : k.pc.serving = .screening) (input : h.input = k.buf) (began : h.began = [])
      (wrote : k.wrote = [])
  /-- It is turned away. -/
  | away (pc : k.pc.serving = .over ∨ ∃ ev, k.pc = .refuse ev) (refused : k.granted = false)
  /-- Its hello has been read and not been answered. -/
  | greeting {hello : Text} (pc : k.pc.greets = true) (accept : SaysHello env hello)
      (read : ReadOff h.input [hello] k.buf) (began : h.began = []) (wrote : k.wrote = [])
      (reply : ∀ l, k.pc = .helloWrite l → l.ev.isHello = true)
  | loop {ls : List Text} {replies : List Event} (pc : k.pc = .loop)
      (log : Log env k h ls k.buf replies) (answered : List.Forall₂ Began.Answers h.began replies)
  /-- The last of the lines that were read is being processed. -/
  | handling {ls : List Text} {replies : List Event} {old : List Began} {b : Began}
      (busy : b.Busy k.pc) (log : Log env k h ls k.buf replies) (began : h.began = old ++ [b])
      (answered : List.Forall₂ Began.Answers old replies)
  /-- The loop has ended. -/
  | finished {ls : List Text} {rest : List UInt8} {replies : List Event} (pc : k.pc.serving = .over)
      (log : Log env k h ls rest replies) (answered : List.Forall₂ Began.Answers h.began replies)
      (stop : h.failed = true ∨ NoLine k.eof rest)

variable {env : Env} {s s' : Sys}

theorem Began.Busy.serving {b : Began} {pc : ConnPc} (h : b.Busy pc) : pc.serving = .handling := by
  cases pc with
  | stopLock r | stopWait r | stopHook r =>
    cases r with
    | requested => rfl
    | _ => exact h.elim
  | startLock | spawnMonitor | upHook | statusSnap | reply => rfl
  | _ => exact h.elim

theorem Event.isPush_of_isHello {ev : Event} (h : ev.isHello = true) : ev.isPush = false := by
  cases ev with
  | hello => rfl
  | _ => cases h

/-- A push is nothing that a dialog counts. -/
theorem wrote_push {k k' : Conn} {l : Line} (hl : l.ev.isPush = true) (h : k'.out = k.out ++ [l]) :
    k'.wrote = k.wrote := by
  unfold Conn.wrote
  rw [h, List.map_append, List.filter_append]
  simp [hl]

theorem wrote_line {k k' : Conn} {l : Line} (hl : l.ev.isPush = false)
    (h : k'.out = k.out ++ [l]) : k'.wrote = k.wrote ++ [l.ev] := by
  unfold Conn.wrote
  rw [h, List.map_append, List.filter_append]
  simp [hl]

theorem wrote_eq {k k' : Conn} (h : k'.out = k.out) : k'.wrote = k.wrote := by
  unfold Conn.wrote
  rw [h]

theorem Began.Answers.not_push {b : Began} {ev : Event} (h : b.Answers ev)
    (hb : ∀ ev', b = .answer ev' → ev'.isPush = false) : ev.isPush = false := by
  cases b with
  | start => rcases h with ⟨_, _, rfl⟩ | ⟨_, rfl⟩ <;> rfl
  | status =>
    obtain ⟨_, _, _, rfl⟩ := h
    rfl
  | stop => rcases h with rfl | rfl <;> rfl
  | answer ev' =>
    cases h
    exact hb ev rfl

theorem asked_not_push {l : Text} {ev : Event} (h : asked env l = some (.answer ev)) :
    ev.isPush = false := by
  unfold asked at h
  split at h
  · cases h
  · split at h <;> cases h <;> rfl

theorem Log.congr {k k' : Conn} {h h' : Heard} {ls : List Text} {rest : List UInt8}
    {replies : List Event} (hlog : Log env k h ls rest replies) (hinput : h'.input = h.input)
    (hbegan : h'.began = h.began) (hwrote : k'.wrote = k.wrote) : Log env k' h' ls rest replies where
  read := hinput ▸ hlog.read
  began := hbegan ▸ hlog.began
  wrote := hwrote ▸ hlog.wrote

/-- The thread moves on with `rest` in its buffer. -/
theorem Log.move {k k' : Conn} {h : Heard} {ls : List Text} {rest : List UInt8}
    {replies : List Event} (hlog : Log env k h ls rest replies) (hbuf : k'.buf = rest)
    (hout : k'.out = k.out) : Log env k' h ls k'.buf replies :=
  hbuf ▸ hlog.congr rfl rfl (wrote_eq hout)

/-- A step that the connection's thread does not take. -/
theorem Dialog.keep {k k' : Conn} {h h' : Heard} (hD : Dialog env k h) (hpc : k'.pc = k.pc)
    (hgranted : k'.granted = k.granted) (hbuf : k'.buf = k.buf) (hwrote : k'.wrote = k.wrote)
    (heof : k.eof = true → k'.eof = true) (hinput : h'.input = h.input)
    (hbegan : h'.began = h.began) (hfailed : h'.failed = h.failed) : Dialog env k' h' := by
  cases hD with
  | screening pc input began wrote =>
    exact .screening (hpc ▸ pc) (by rw [hinput, hbuf, input]) (hbegan ▸ began) (hwrote ▸ wrote)
  | away pc refused => exact .away (hpc ▸ pc) (hgranted ▸ refused)
  | greeting pc accept read began wrote reply =>
    refine .greeting (hpc ▸ pc) accept ?_ (hbegan ▸ began) (hwrote ▸ wrote) (hpc ▸ reply)
    rw [hinput, hbuf]
    exact read
  | loop pc log answered =>
    exact .loop (hpc ▸ pc) (hbuf ▸ log.congr hinput hbegan hwrote) (hbegan ▸ answered)
  | handling busy log began answered =>
    exact .handling (hpc ▸ busy) (hbuf ▸ log.congr hinput hbegan hwrote) (hbegan ▸ began) answered
  | finished pc log answered stop =>
    refine .finished (hpc ▸ pc) (log.congr hinput hbegan hwrote) (hbegan ▸ answered) ?_
    rw [hfailed]
    exact stop.imp_right fun hn => hn.mono heof

/-! ## A step of the connection's own thread -/

/-- The loop at a line: the thread goes where the line asks it to. -/
theorem loopLine_line (env : Env) (s : Sys) (c : ConnId) (l : Text) :
    (asked env l = none ∧ s.loopLine env c (.line l) = s) ∨
      ∃ b pc, s.loopLine env c (.line l) = s.setPc c pc ∧ asked env l = some b ∧
        pc.began = some b ∧ b.Busy pc := by
  unfold asked Sys.loopLine
  dsimp only
  by_cases hblank : (trim l).isEmpty = true
  · rw [if_pos hblank, if_pos hblank]
    exact .inl ⟨rfl, rfl⟩
  · rw [if_neg hblank, if_neg hblank]
    right
    cases decodeCmd env.fromStr l with
    | error e => exact ⟨_, _, rfl, rfl, rfl, rfl⟩
    | ok cmd => cases cmd <;> exact ⟨_, _, rfl, rfl, rfl, rfl⟩

/-- The step at the top of the loop. -/
theorem loop_cases {c : ConnId} {ans : Answer} (hpc : (s.conns c).pc = .loop)
    (h : s.connStep env c ans = some s') :
    (∃ n, ans = .refill n ∧ s.readLine c = none ∧ s' = s.modConn c fun k =>
        { k with buf := k.buf ++ k.sock.take n, sock := k.sock.drop n }) ∨
      (ans = .failed ∧ s' = s.setPc c .ended) ∨
      ∃ rl rest, ans = .done ∧ s.readLine c = some (rl, rest) ∧
        s' = (s.setBuf c rest).loopLine env c rl := by
  unfold Sys.connStep at h
  rw [hpc] at h
  dsimp only [Sys.loopStep] at h
  split at h
  · obtain ⟨hline, -, rfl⟩ := refill_eq_some h
    exact .inl ⟨_, rfl, hline, rfl⟩
  · cases h
    exact .inr (.inl ⟨rfl, rfl⟩)
  · obtain ⟨⟨rl, rest⟩, hline, rfl⟩ := Option.map_eq_some_iff.mp h
    exact .inr (.inr ⟨rl, rest, rfl, hline, rfl⟩)
  · cases h

section

variable {c : ConnId} {ans : Answer} {h : Heard}

/-- Off the two reads, a step adds nothing to the record. -/
theorem own_eq (hhello : (s.conns c).pc ≠ .readHello) (hloop : (s.conns c).pc ≠ .loop) :
    h.own env s c ans = h := by
  unfold Heard.own
  split <;> first | rfl | contradiction

theorem ConnPc.of_screening {pc : ConnPc} (h : pc.serving = .screening) :
    pc = .auth ∨ pc = .readHello := by
  cases pc with
  | auth => exact .inl rfl
  | readHello => exact .inr rfl
  | stopLock r | stopWait r | stopHook r => cases r <;> cases h
  | _ => cases h

/-- A step before or in `read_hello`. -/
theorem Dialog.screening_step (hm : ConnMove env s c ans s')
    (hisNew : (s.conns c).pc.stage.isNew = true → (s.conns c).granted = false)
    (hpc : (s.conns c).pc = .auth ∨ (s.conns c).pc = .readHello) (input : h.input = (s.conns c).buf)
    (began : h.began = []) (wrote : (s.conns c).wrote = []) :
    Dialog env (s'.conns c) (h.own env s c ans) := by
  have hng : (s.conns c).granted = false := by
    refine hisNew ?_
    rcases hpc with hpc | hpc <;> rw [hpc] <;> rfl
  cases hm with
  | gate hpc =>
    rw [own_eq (by simp [hpc]) (by simp [hpc])]
    exact .screening (by simp [ConnPc.serving]) (by simpa using input) began
      ((wrote_eq (by simp)).trans wrote)
  | reject | helloFail | helloDrop => exact .away (by simp [ConnPc.serving]) (by simpa using hng)
  | helloRefuse => exact .away (by simp) (by simpa using hng)
  | refill hpc' =>
    have hpc : (s.conns c).pc = .readHello := by
      rcases hpc' with hpc' | hpc'
      · exact hpc'
      · simp [hpc'] at hpc
    refine .screening (by simp [hpc, ConnPc.serving]) ?_ ?_ ((wrote_eq (by simp)).trans wrote)
    · simp [Heard.own, hpc, input]
    · simp [Heard.own, hpc, began]
  | @helloAccept l rest takeover hpc hline hcmd =>
    obtain ⟨f, hf, htext, hbuf⟩ := readLineLimited_line hline
    have hown : h.own env s c .done = h := by simp [Heard.own, hpc]
    have hread : ReadOff h.input [l] rest := by
      rw [input, hbuf]
      exact .cons hf htext .nil
    have hsays : SaysHello env l := ⟨takeover, hcmd⟩
    rw [hown]
    exact .greeting (by simp [ConnPc.greets]) hsays (by simpa using hread) began
      ((wrote_eq (by simp)).trans wrote) (by simp)
  | _ => simp_all

/-- A step between the hello and its answer. -/
theorem Dialog.greeting_step {hello : Text} (hm : ConnMove env s c ans s')
    (hisNew : (s.conns c).pc.stage.isNew = true → (s.conns c).granted = false)
    (hpc : (s.conns c).pc.greets = true) (accept : SaysHello env hello)
    (read : ReadOff h.input [hello] (s.conns c).buf) (began : h.began = [])
    (wrote : (s.conns c).wrote = [])
    (reply : ∀ l, (s.conns c).pc = .helloWrite l → l.ev.isHello = true) :
    Dialog env (s'.conns c) (h.own env s c ans) := by
  rw [own_eq (by rintro he; rw [he] at hpc; cases hpc) (by rintro he; rw [he] at hpc; cases hpc)]
  cases hm with
  | busy _ hpc' =>
    have hng := hisNew (by rw [hpc']; rfl)
    exact .away (by simp) (by simpa using hng)
  | accept _ hpc' =>
    exact .greeting (by simp [ConnPc.greets]) accept (by simpa using read) began
      ((wrote_eq (by simp)).trans wrote) (by simp)
  -- whoever is displaced, what this connection has read and written is the same
  | @takeover _ old _ hpc' =>
    by_cases ho : c = old.conn
    · exact .greeting (by simp [ConnPc.greets]) accept (by simpa [ho] using read) began
        ((wrote_eq (by simp [ho])).trans wrote) (by simp)
    · exact .greeting (by simp [ConnPc.greets]) accept (by simpa [ho] using read) began
        ((wrote_eq (by simp [ho])).trans wrote) (by simp)
  | @kickWrite old hpc' =>
    by_cases ho : c = old
    · subst ho
      exact .greeting (by simp [ConnPc.greets]) accept (by simpa using read) began
        ((wrote_push (l := ⟨.kicked, none⟩) rfl (by simp)).trans wrote) (by simp)
    · exact .greeting (by simp [ConnPc.greets]) accept (by simpa [ho] using read) began
        ((wrote_eq (by simp [ho])).trans wrote) (by simp)
  | kickSkip hpc' =>
    exact .greeting (by simp [ConnPc.greets]) accept (by simpa using read) began
      ((wrote_eq (by simp)).trans wrote) (by simp)
  | @kickShutdown old n hpc' =>
    by_cases ho : c = old
    · subst ho
      exact .greeting (by simp [ConnPc.greets]) accept (by simpa using read) began
        ((wrote_eq (by simp)).trans wrote) (by simp)
    · exact .greeting (by simp [ConnPc.greets]) accept (by simpa [ho] using read) began
        ((wrote_eq (by simp [ho])).trans wrote) (by simp)
  | helloSnap _ hpc' =>
    refine .greeting (by simp [ConnPc.greets]) accept (by simpa using read) began
      ((wrote_eq (by simp)).trans wrote) ?_
    intro l hl
    simp at hl
    rw [← hl]
    rfl
  | @helloWrite _ l hpc' =>
    have hhello := reply l hpc'
    -- the answer to the hello is the first line that counts as written
    have hpush := Event.isPush_of_isHello hhello
    have hwrote : (((s.write c l).setPc c .loop).conns c).wrote = [l.ev] := by
      rw [wrote_line (k := s.conns c) hpush (by simp), wrote]
      rfl
    have hlog : Log env (((s.write c l).setPc c .loop).conns c) h [] (s.conns c).buf [] :=
      ⟨⟨hello, accept, read⟩, began, l.ev, hhello, hwrote⟩
    have hanswered : List.Forall₂ Began.Answers h.began [] := began ▸ .nil
    exact .loop (by simp) (by simpa using hlog) hanswered
  | refill hpc' => rcases hpc' with hpc' | hpc' <;> simp [hpc', ConnPc.greets] at hpc
  | _ => simp_all [ConnPc.greets]

/-- A step at the top of the loop. -/
theorem Dialog.loop_step {ls : List Text} {replies : List Event}
    (hstep : s.connStep env c ans = some s') (hpc : (s.conns c).pc = .loop)
    (hlog : Log env (s.conns c) h ls (s.conns c).buf replies)
    (answered : List.Forall₂ Began.Answers h.began replies) :
    Dialog env (s'.conns c) (h.own env s c ans) := by
  rcases loop_cases hpc hstep with ⟨n, rfl, -, rfl⟩ | ⟨rfl, rfl⟩ | ⟨rl, rest, rfl, hline, hs'⟩
  · -- a read
    have hown : h.own env s c (.refill n) =
        { h with input := h.input ++ (s.conns c).sock.take n } := by
      simp [Heard.own, hpc]
    rw [hown]
    have hlog' : Log env (s.conns c) { h with input := h.input ++ (s.conns c).sock.take n } ls
        ((s.conns c).buf ++ (s.conns c).sock.take n) replies :=
      ⟨hlog.read.imp fun _ hr => ⟨hr.1, hr.2.more _⟩, hlog.began, hlog.wrote⟩
    exact .loop (by simp [hpc]) (hlog'.move (by simp) (by simp)) answered
  · -- a read that fails
    have hown : h.own env s c .failed = { h with failed := true } := by
      simp [Heard.own, hpc]
    rw [hown]
    exact .finished (by simp [ConnPc.serving]) (hlog.congr rfl rfl (wrote_eq (by simp))) answered
      (.inl rfl)
  have hown : h.own env s c .done =
      { h with began := h.began ++ (s'.conns c).pc.began.toList } := by
    simp [Heard.own, hpc, hstep]
  rw [hown]
  -- no line to read: the loop ends
  have hstop (hrl : ∀ l, rl ≠ .line l) (hs' : s' = (s.setBuf c rest).setPc c .ended) :
      Dialog env (s'.conns c) { h with began := h.began ++ (s'.conns c).pc.began.toList } := by
    have hno : NoLine (s.conns c).eof (s.conns c).buf := readLineLimited_stop hline hrl
    subst hs'
    refine .finished (by simp [ConnPc.serving]) (hlog.congr rfl ?_ (wrote_eq (by simp))) ?_ (.inr ?_)
    · simp [ConnPc.began]
    · simpa [ConnPc.began] using answered
    · simpa [Conn.eof] using hno
  cases rl with
  | eof => exact hstop (by simp) hs'
  | err msg => exact hstop (by simp) hs'
  | line l =>
    -- one more line has been read off the input
    obtain ⟨f, hf, htext, hbuf⟩ := readLineLimited_line hline
    have hread : ∃ hello, SaysHello env hello ∧ ReadOff h.input (hello :: (ls ++ [l])) rest := by
      obtain ⟨hello, hsays, hr⟩ := hlog.read
      exact ⟨hello, hsays, (hbuf ▸ hr).snoc hf htext⟩
    rcases loopLine_line env (s.setBuf c rest) c l with ⟨hask, he⟩ | ⟨b, pc, he, hask, hb, hbusy⟩
    · -- a blank line
      rw [he] at hs'
      have hbegan : h.began ++ (s'.conns c).pc.began.toList = h.began := by
        simp [hs', hpc, ConnPc.began]
      rw [hbegan]
      have hlog' : Log env (s.conns c) h (ls ++ [l]) rest replies :=
        ⟨hread, by rw [List.filterMap_append, ← hlog.began]; simp [hask], hlog.wrote⟩
      exact .loop (by simp [hs', hpc]) (hlog'.move (by simp [hs']) (by simp [hs'])) answered
    · rw [he] at hs'
      have hbegan : h.began ++ (s'.conns c).pc.began.toList = h.began ++ [b] := by
        simp [hs', hb]
      rw [hbegan]
      have hlog' : Log env (s.conns c) { h with began := h.began ++ [b] } (ls ++ [l]) rest
          replies :=
        ⟨hread, by rw [List.filterMap_append, ← hlog.began]; simp [hask], hlog.wrote⟩
      exact .handling (by simpa [hs'] using hbusy) (hlog'.move (by simp [hs']) (by simp [hs'])) rfl
        answered

/-- A step while a line is being processed. -/
theorem Dialog.handling_step {ls : List Text} {replies : List Event} {old : List Began} {b : Began}
    (hm : ConnMove env s c ans s') (busy : b.Busy (s.conns c).pc)
    (hlog : Log env (s.conns c) h ls (s.conns c).buf replies) (began : h.began = old ++ [b])
    (answered : List.Forall₂ Began.Answers old replies) :
    Dialog env (s'.conns c) (h.own env s c ans) := by
  have hserving := busy.serving
  rw [own_eq (by rintro he; rw [he] at hserving; cases hserving)
    (by rintro he; rw [he] at hserving; cases hserving)]
  -- the thread goes on with the line
  have hgo (hbusy : b.Busy (s'.conns c).pc) (hbuf : (s'.conns c).buf = (s.conns c).buf)
      (hout : (s'.conns c).out = (s.conns c).out) : Dialog env (s'.conns c) h :=
    .handling hbusy (hlog.move hbuf hout) began answered
  cases hm with
  | @reply _ l hpc =>
    rw [hpc] at busy
    have hpush : l.ev.isPush = false := by
      refine Began.Answers.not_push busy fun ev he => ?_
      have hmem : b ∈ ls.filterMap (asked env) := by
        rw [← hlog.began, began]
        simp
      obtain ⟨line, -, hask⟩ := List.mem_filterMap.mp hmem
      exact asked_not_push (he ▸ hask)
    obtain ⟨greet, hgreet, hwrote⟩ := hlog.wrote
    have hlog' : Log env (((s.write c l).setPc c .loop).conns c) h ls (s.conns c).buf
        (replies ++ [l.ev]) := by
      refine ⟨hlog.read, hlog.began, greet, hgreet, ?_⟩
      rw [wrote_line (k := s.conns c) hpush (by simp), hwrote]
      rfl
    have hanswered : List.Forall₂ Began.Answers h.began (replies ++ [l.ev]) := by
      rw [began]
      exact List.rel_append answered (.cons busy .nil)
    exact .loop (by simp) (by simpa using hlog') hanswered
  | @startRunning r _ hpc =>
    rw [hpc] at busy
    have hbusy : b.Busy (.reply ⟨.coreStarted r.pid r.rpcPort, s.report⟩) :=
      busy ▸ .inl ⟨_, _, rfl⟩
    exact hgo (by simpa using hbusy) (by simp) (by simp)
  | @startFailed _ msg _ hpc =>
    rw [hpc] at busy
    have hbusy : b.Busy (.reply ⟨.error "spawn_failed" msg, none⟩) := busy ▸ .inr ⟨_, rfl⟩
    exact hgo (by simpa using hbusy) (by simp) (by simp)
  | spawn _ hpc =>
    have hbusy : b.Busy (.spawnMonitor s.nGen) := by
      rw [hpc] at busy
      exact busy
    exact hgo (by simpa using hbusy) (by simp) (by simp)
  | @spawnMonitor _ g hpc =>
    have hbusy : b.Busy (.upHook g) := by
      rw [hpc] at busy
      exact busy
    exact hgo (by simpa using hbusy) (by simp) (by simp)
  | @upHook st g hpc =>
    rw [hpc] at busy
    have hbusy : b.Busy (.reply
        ⟨.coreStarted (s.children g).pid (s.children g).rpcPort, some (.running g)⟩) :=
      busy ▸ .inl ⟨_, _, rfl⟩
    exact hgo (by simpa using hbusy) (by simp) (by simp)
  | statusSnap _ hpc =>
    rw [hpc] at busy
    have hbusy : b.Busy (.reply
        ⟨.status s.coreSnapshot.1 s.coreSnapshot.2.1 s.coreSnapshot.2.2, s.report⟩) :=
      busy ▸ ⟨_, _, _, rfl⟩
    exact hgo (by simpa using hbusy) (by simp) (by simp)
  | @stopIdle _ r _ hpc =>
    rw [hpc] at busy
    have hbusy : b.Busy (Sys.afterStopPc r false none s.report) := by
      cases r with
      | requested => exact busy ▸ .inr rfl
      | _ => exact busy.elim
    exact hgo (by simpa using hbusy) (by simp) (by simp)
  | @stopMark _ r run _ hpc =>
    rw [hpc] at busy
    have hbusy : b.Busy (.stopWait r (s.nGen - 1)) := by
      cases r with
      | requested => exact busy
      | _ => exact busy.elim
    exact hgo (by simpa using hbusy) (by simp) (by simp)
  | @stopSeen _ r g _ hpc =>
    rw [hpc] at busy
    have hbusy : b.Busy (.stopHook r g) := by
      cases r with
      | requested => exact busy
      | _ => exact busy.elim
    exact hgo (by simpa using hbusy) (by simp) (by simp)
  | stopAgain _ hpc => exact hgo busy rfl rfl
  | @stopHook st r g hpc =>
    rw [hpc] at busy
    have hbusy (hook : Option HookId) (about : Option Report) :
        b.Busy (Sys.afterStopPc r true hook about) := by
      cases r with
      | requested => exact busy ▸ .inl rfl
      | _ => exact busy.elim
    refine hgo ?_ (by simp) (by simp)
    simpa using hbusy (s.hookHandle env st) (some (.stopped g))
  | refill hpc => rcases hpc with hpc | hpc <;> simp [hpc, Began.Busy] at busy
  | _ => simp_all [Began.Busy]

/-- After the loop nothing is read, and nothing but pushes is written. -/
theorem ConnMove.over_step (hm : ConnMove env s c ans s')
    (hpc : (s.conns c).pc.serving = .over) : (s'.conns c).pc.serving = .over ∧
      (s'.conns c).granted = (s.conns c).granted ∧ (s'.conns c).out = (s.conns c).out ∧
      (s'.conns c).eof = (s.conns c).eof := by
  cases hm with
  | refill hpc' => rcases hpc' with hpc' | hpc' <;> simp [hpc', ConnPc.serving] at hpc
  | sweep hpc' hsw | swept hpc' hsw =>
    obtain ⟨hooks, n, calls, rfl⟩ := sweepStep_eq hsw
    simp [ConnPc.serving, Conn.eof]
  | @stopIdle _ r _ hpc' | @stopHook _ r _ hpc' =>
    rw [hpc'] at hpc
    cases r with
    | ownerDrop => simp [Sys.afterStopPc, ConnPc.serving, Conn.eof]
    | _ => cases hpc
  | @stopMark _ r _ _ hpc' | @stopSeen _ r _ _ hpc' =>
    rw [hpc'] at hpc
    simpa [ConnPc.serving, Conn.eof] using hpc
  | stopAgain _ hpc' => exact ⟨hpc, rfl, rfl, rfl⟩
  | exit hpc' => exact ⟨hpc, rfl, rfl, rfl⟩
  | endedKicked hpc' | endedOwner hpc' | giveUp _ hpc' | giveUpOther _ hpc' | join hpc' =>
    simp [ConnPc.serving, Conn.eof]
  | _ => simp_all [ConnPc.serving]

/-- **A step of the connection's own thread.** -/
theorem Dialog.own_step (hD : Dialog env (s.conns c) h)
    (hisNew : (s.conns c).pc.stage.isNew = true → (s.conns c).granted = false)
    (hstep : s.connStep env c ans = some s') : Dialog env (s'.conns c) (h.own env s c ans) := by
  have hm := connStep_move hstep
  cases hD with
  | screening pc input began wrote =>
    exact screening_step hm hisNew (ConnPc.of_screening pc) input began wrote
  | away pc refused =>
    rcases pc with pc | ⟨ev, pc⟩
    · obtain ⟨hpc, hg, -, -⟩ := hm.over_step pc
      exact .away (.inl hpc) (hg.trans refused)
    · cases hm with
      | refused => exact .away (by simp [ConnPc.serving]) (by simpa using refused)
      | refill hpc => rcases hpc with hpc | hpc <;> simp [hpc] at pc
      | _ => simp_all
  | greeting pc accept read began wrote reply =>
    exact greeting_step hm hisNew pc accept read began wrote reply
  | loop pc log answered => exact loop_step hstep pc log answered
  | handling busy log began answered => exact handling_step hm busy log began answered
  | finished pc log answered stop =>
    obtain ⟨hpc, -, hout, heof⟩ := hm.over_step pc
    have hown : h.own env s c ans = h :=
      own_eq (by rintro he; rw [he] at pc; cases pc) (by rintro he; rw [he] at pc; cases pc)
    rw [hown]
    refine .finished hpc (log.congr rfl rfl (wrote_eq hout)) answered ?_
    rw [heof]
    exact stop

end

/-! ## A step of any other thread -/

/-- What the steps of others do to a connection. -/
inductive Aside (k : Conn) : Conn → Prop
  | push {out : List Line} {kicked : Bool}
      (wrote : Conn.wrote { k with out := out, kicked := kicked } = k.wrote) :
      Aside k { k with out := out, kicked := kicked }
  /-- The stream ends, and bytes that have not been read may be lost. -/
  | cut {sock : List UInt8} (kept : sock <+: k.sock) :
      Aside k { k with sock := sock, closed := true }

theorem Aside.refl (k : Conn) : Aside k k := .push rfl

theorem ConnMove.aside {c d : ConnId} {ans : Answer} (h : ConnMove env s c ans s') (hd : d ≠ c) :
    Aside (s.conns d) (s'.conns d) := by
  have hsame (he : s'.conns d = s.conns d) : Aside (s.conns d) (s'.conns d) := he ▸ .refl _
  cases h with
  | sweep hpc hsw | swept hpc hsw =>
    obtain ⟨hooks, n, calls, rfl⟩ := sweepStep_eq hsw
    exact hsame (by simp [hd])
  | @takeover _ old _ hpc =>
    by_cases ho : d = old.conn
    · simp only [Sys.setPc, Sys.setOwner, Sys.kick, Sys.modConn, Function.update_of_ne hd, ← ho,
        Function.update_self]
      exact .push rfl
    · exact hsame (by simp [hd, ho])
  | @kickWrite old hpc =>
    by_cases ho : d = old
    · simp only [Sys.setPc, Sys.write, Sys.modConn, Function.update_of_ne hd, ← ho,
        Function.update_self]
      exact .push (wrote_push (l := ⟨.kicked, none⟩) rfl rfl)
    · exact hsame (by simp [hd, ho])
  | @kickShutdown old n hpc =>
    by_cases ho : d = old
    · simp only [Sys.setPc, Sys.modConn, Function.update_of_ne hd, ← ho, Function.update_self]
      exact .cut (List.take_prefix n _)
    · exact hsame (by simp [hd, ho])
  | _ => exact hsame (by simp [hd])

theorem MonMove.aside {g : Gen} {ans : Answer} (h : MonMove env s g ans s') (d : ConnId) :
    Aside (s.conns d) (s'.conns d) := by
  rcases h.conns_cases d with he | ⟨l, hw, he⟩
  · exact he ▸ .refl _
  · rw [he]
    cases hw with
    | coreExited hpc => exact .push (wrote_push rfl rfl)

theorem Dialog.aside {k k' : Conn} {h : Heard} (hD : Dialog env k h) (hk : Aside k k') :
    Dialog env k' h := by
  cases hk with
  | push wrote => exact hD.keep rfl rfl rfl wrote id rfl rfl rfl
  | cut kept =>
    refine hD.keep rfl rfl rfl rfl ?_ rfl rfl rfl
    intro heof
    have hnil : k.sock = [] := by
      simp [Conn.eof] at heof
      exact heof.2
    rw [hnil, List.prefix_nil] at kept
    rw [kept]
    rfl

/-- More bytes arrive on a stream that has not ended. -/
theorem Dialog.arrive {k : Conn} {h : Heard} (hD : Dialog env k h) (hopen : k.closed = false)
    (bytes : List UInt8) : Dialog env { k with sock := k.sock ++ bytes }
      { h with arrived := h.arrived ++ bytes } := by
  refine hD.keep rfl rfl rfl rfl ?_ rfl rfl rfl
  simp [Conn.eof, hopen]

/-! ## Along a run -/

/-- Nothing that arrived is read twice, or out of order, and nothing is lost while the
stream is open. -/
def Heard.Complete (h : Heard) (k : Conn) : Prop :=
  ∃ lost, h.arrived = h.input ++ (k.sock ++ lost) ∧ (k.closed = false → lost = [])

theorem Heard.Complete.aside {h : Heard} {k k' : Conn} (hC : h.Complete k) (hk : Aside k k') :
    h.Complete k' := by
  obtain ⟨lost, he, hopen⟩ := hC
  cases hk with
  | push => exact ⟨lost, he, hopen⟩
  | cut kept =>
    obtain ⟨more, hmore⟩ := kept
    refine ⟨more ++ lost, ?_, fun hc => nomatch hc⟩
    rw [he, ← hmore, List.append_assoc]

theorem own_arrived (env : Env) (s : Sys) (c : ConnId) (ans : Answer) (h : Heard) :
    (h.own env s c ans).arrived = h.arrived := by
  unfold Heard.own
  split <;> rfl

/-- Only a read of the connection adds to its input. -/
theorem own_input {c : ConnId} {ans : Answer} (h : Heard)
    (hread : (s.conns c).pc = .readHello ∨ (s.conns c).pc = .loop → ∀ n, ans ≠ .refill n) :
    (h.own env s c ans).input = h.input := by
  unfold Heard.own
  split
  · next n hpc => exact absurd rfl (hread (.inl hpc) n)
  · next n hpc => exact absurd rfl (hread (.inr hpc) n)
  · rfl
  · rfl
  · rfl

theorem ConnMove.complete {c : ConnId} {ans : Answer} {h : Heard} (hm : ConnMove env s c ans s')
    (hC : h.Complete (s.conns c)) : (h.own env s c ans).Complete (s'.conns c) := by
  obtain ⟨lost, he, hopen⟩ := hC
  have harr := own_arrived env s c ans h
  -- the thread reads nothing
  have hkeep (hread : (s.conns c).pc = .readHello ∨ (s.conns c).pc = .loop → ∀ n, ans ≠ .refill n)
      (hk : ∃ more, (s.conns c).sock = (s'.conns c).sock ++ more ∧
        ((s'.conns c).closed = false → more = [] ∧ (s.conns c).closed = false)) :
      (h.own env s c ans).Complete (s'.conns c) := by
    obtain ⟨more, hsock, hclosed⟩ := hk
    refine ⟨more ++ lost, ?_, fun hc => ?_⟩
    · rw [harr, he, own_input h hread, hsock, List.append_assoc]
    · obtain ⟨rfl, hc⟩ := hclosed hc
      exact hopen hc
  cases hm with
  | @refill n hpc hline hn =>
    refine ⟨lost, ?_, by simpa using hopen⟩
    have hinput : (h.own env s c (.refill n)).input = h.input ++ (s.conns c).sock.take n := by
      rcases hpc with hpc | hpc <;> simp [Heard.own, hpc]
    rw [harr, he, hinput, List.append_assoc]
    congr 1
    simp [← List.append_assoc]
  | @kickShutdown old n hpc =>
    refine hkeep (fun _ _ => nofun) ?_
    by_cases ho : c = old
    · subst ho
      exact ⟨(s.conns c).sock.drop n, by simp, by simp⟩
    · exact ⟨[], by simp [ho], by simp [ho]⟩
  | @takeover _ old _ hpc =>
    refine hkeep (by simp [hpc]) ⟨[], ?_⟩
    by_cases ho : c = old.conn <;> simp [ho]
  | @kickWrite old hpc =>
    refine hkeep (fun _ _ => nofun) ⟨[], ?_⟩
    by_cases ho : c = old <;> simp [ho]
  | sweep hpc hsw | swept hpc hsw =>
    obtain ⟨hooks, n, calls, rfl⟩ := sweepStep_eq hsw
    exact hkeep (by simp [hpc]) ⟨[], by simp, by simp⟩
  | refused hpc | busy _ hpc | accept _ hpc | helloSnap _ hpc | helloWrite hpc
  | startFailed _ hpc | spawnMonitor hpc | statusSnap _ hpc | reply hpc | stopIdle _ hpc
  | stopMark _ hpc | stopSeen _ hpc | stopAgain _ hpc | endedKicked hpc | endedOwner hpc
  | giveUp _ hpc | giveUpOther _ hpc | join hpc | exit hpc | reject hpc =>
    exact hkeep (by simp [hpc]) ⟨[], by simp, by simp⟩
  | _ => exact hkeep (fun _ _ => nofun) ⟨[], by simp, by simp⟩

/-- What the record `h` says of a connection. -/
structure Heeded (env : Env) (k : Conn) (h : Heard) : Prop where
  dialog : Dialog env k h
  complete : h.Complete k

theorem Heeded.fresh (uid : Option UInt32) : Heeded env { pc := .auth, uid := uid } {} :=
  ⟨.screening rfl rfl rfl rfl, [], rfl, fun _ => rfl⟩

theorem Heeded.aside {k k' : Conn} {h : Heard} (hH : Heeded env k h) (hk : Aside k k') :
    Heeded env k' h :=
  ⟨hH.dialog.aside hk, hH.complete.aside hk⟩

theorem Heeded.arrive {k : Conn} {h : Heard} (hH : Heeded env k h) (hopen : k.closed = false)
    (bytes : List UInt8) : Heeded env { k with sock := k.sock ++ bytes }
      { h with arrived := h.arrived ++ bytes } := by
  refine ⟨hH.dialog.arrive hopen bytes, [], ?_, fun _ => rfl⟩
  obtain ⟨lost, he, hlost⟩ := hH.complete
  rw [he, hlost hopen]
  simp

/-- **Every step keeps every dialog.** -/
theorem Heeded.step {heard : ConnId → Heard} {a : Action} (hr : (supervisor env).Reachable s)
    (hs : step env s a = some s') (hH : ∀ c, Heeded env (s.conns c) (heard c)) (c : ConnId) :
    Heeded env (s'.conns c) (noteHeard env s a heard c) := by
  -- what happens beside the connection
  have haside (hk : Aside (s.conns c) (s'.conns c)) (hn : noteHeard env s a heard c = heard c) :
      Heeded env (s'.conns c) (noteHeard env s a heard c) := by
    rw [hn]
    exact (hH c).aside hk
  cases (step_move hs).2 with
  | @conn d ans _ hm =>
    by_cases hd : c = d
    · subst hd
      have hstep : s.connStep env c ans = some s' := by
        unfold Supervisor.step at hs
        split at hs
        · cases hs
        · exact hs
      have hn : noteHeard env s (.conn c ans) heard c = (heard c).own env s c ans :=
        Function.update_self ..
      rw [hn]
      exact ⟨(hH c).dialog.own_step ((owned_of_reachable hr).isNew c) hstep,
        hm.complete (hH c).complete⟩
    · exact haside (hm.aside hd) (Function.update_of_ne hd ..)
  | monitor hm => exact haside (hm.aside c) rfl
  | other hm =>
    cases hm with
    | main hmain hsw | serve hmain hsw =>
      obtain ⟨hooks, n, calls, rfl⟩ := sweepStep_eq hsw
      exact haside (.refl _) rfl
    | @accept uid hmain =>
      show Heeded env (update s.conns s.nConns { pc := .auth, uid := uid } c)
        (update heard s.nConns {} c)
      by_cases hd : c = s.nConns
      · rw [hd, Function.update_self, Function.update_self]
        exact .fresh uid
      · rw [Function.update_of_ne hd, Function.update_of_ne hd]
        exact hH c
    | @arrive d bytes hopen =>
      show Heeded env (update s.conns d { s.conns d with sock := (s.conns d).sock ++ bytes } c)
        (update heard d { heard d with arrived := (heard d).arrived ++ bytes } c)
      by_cases hd : c = d
      · rw [hd, Function.update_self, Function.update_self]
        exact (hH d).arrive hopen bytes
      · rw [Function.update_of_ne hd, Function.update_of_ne hd]
        exact hH c
    | @hangup d =>
      refine haside ?_ rfl
      show Aside (s.conns c) (update s.conns d { s.conns d with closed := true } c)
      by_cases hd : c = d
      · rw [hd, Function.update_self]
        exact .cut (List.prefix_refl _)
      · rw [Function.update_of_ne hd]
        exact .refl _
    | procs ha => rcases ha with ⟨p, rfl⟩ | ⟨pid, rfl⟩ <;> exact haside (.refl _) rfl
    | _ => exact haside (.refl _) rfl

theorem heeded_of_reachable {p : Sys × (ConnId → Heard)} (h : (hearing env).Reachable p) :
    ∀ c, Heeded env (p.1.conns c) (p.2 c) := by
  refine h.invariant (I := fun p => ∀ c, Heeded env (p.1.conns c) (p.2 c)) ?_ ?_
  · intro c
    exact ⟨.away (.inl rfl) rfl, [], rfl, fun _ => rfl⟩
  · intro p a p' hr hH _ hs c
    obtain ⟨hst, hnote⟩ := hs
    rw [hnote]
    exact Heeded.step (reachable_of_hearing hr) hst hH c

end EasyTierMac.Supervisor
