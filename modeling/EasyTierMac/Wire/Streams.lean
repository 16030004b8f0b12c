import EasyTierMac.Wire.System

/-!
# The two streams of the socket

What is in flight to the supervisor, in the kernel or in its `BufReader`, is a sequence of
command lines (`Uplink`): `read_line_limited` takes them one by one. What is in flight to
the client is a sequence of event lines (`Downlink`), of whose first one the client may
have lost the start. A stream that is closed may end anywhere, and then no line is read
from it any more.
-/

namespace EasyTierMac.Wire

open Framing (IsFrame Coming)
open Rust (Text fromUtf8 toUtf8 fromUtf8_toUtf8 toUtf8_append newline_mem_of_toUtf8)
open Supervisor (Conn ReadLine MAX_LINE readLineLimited splitLine_eq)
open Bridge (Stream)

/-! ## Lines -/

/-- The bytes of a text without a newline, and a newline. -/
theorem isFrame_toUtf8 {t : Text} (h : '\n' ∉ t) : IsFrame 0x0A (toUtf8 (t ++ ['\n'])) :=
  ⟨toUtf8 t, fun hm => h (newline_mem_of_toUtf8 hm), toUtf8_append t ['\n']⟩

theorem Json.eventLine_frame {env : Env} (hJ : Json env) (ev : Supervisor.Event) :
    IsFrame 0x0A (env.eventLine ev) :=
  isFrame_toUtf8 (hJ.event_line ev)

/-- A line that `read_line_limited` accepts. -/
structure GoodLine (f : List UInt8) : Prop where
  frame : IsFrame 0x0A f
  length : f.length ≤ MAX_LINE
  utf8 : ∃ t, fromUtf8 f = some t

theorem Env.fromUtf8_cmdLine (env : Env) (cmd : Bridge.Cmd) :
    fromUtf8 (env.cmdLine cmd) = some (Bridge.encodeCmd env.client.codec cmd) :=
  fromUtf8_toUtf8 _

theorem Json.cmdLine_good {env : Env} (hJ : Json env) (cmd : Bridge.Cmd) :
    GoodLine (env.cmdLine cmd) where
  frame := isFrame_toUtf8 (hJ.cmd_line cmd)
  length := hJ.cmd_length cmd
  utf8 := ⟨_, env.fromUtf8_cmdLine cmd⟩

/-! ## `read_line_limited` -/

/-- On a stream of command lines it reads the first one, unless the stream ends in it. -/
theorem readLineLimited_lines {buf more rest : List UInt8} {eof : Bool} {rl : ReadLine}
    {lines : List (List UInt8)} (hlines : ∀ f ∈ lines, GoodLine f)
    (hbuf : buf ++ more = lines.flatten)
    (h : readLineLimited MAX_LINE buf eof = some (rl, rest)) :
    (∃ f fs t, lines = f :: fs ∧ fromUtf8 f = some t ∧ rl = .line t ∧ rest ++ more = fs.flatten) ∨
      (eof = true ∧ 0x0A ∉ buf) := by
  unfold readLineLimited at h
  rw [splitLine_eq] at h
  split at h
  · next l r hsplit =>
    obtain ⟨hl, htake⟩ := Framing.isFrame_of_splitAfter hsplit
    have hcut : l ++ (r ++ buf.drop MAX_LINE ++ more) = lines.flatten := by
      rw [← hbuf, ← List.append_assoc, ← List.append_assoc, ← htake, List.take_append_drop]
    cases lines with
    | nil => exact absurd (List.append_eq_nil_iff.mp hcut).1 hl.ne_nil
    | cons f fs =>
      have hf := hlines f List.mem_cons_self
      -- both start with one frame, so it is the same one
      obtain ⟨rfl, hrest⟩ := hl.append_inj hf.frame hcut
      obtain ⟨t, ht⟩ := hf.utf8
      rw [ht] at h
      cases h
      exact .inl ⟨l, fs, t, rfl, ht, rfl, hrest⟩
  · next hsplit =>
    right
    have hnot : (0x0A : UInt8) ∉ buf.take MAX_LINE := Framing.not_mem_of_splitAfter hsplit
    by_cases hlen : MAX_LINE ≤ buf.length
    · -- the first line fits into what `read_until` sees
      exfalso
      cases lines with
      | nil =>
        rw [(List.append_eq_nil_iff.mp hbuf).1] at hlen
        cases hlen
      | cons f fs =>
        have hf := hlines f List.mem_cons_self
        have hpre : f <+: buf.take MAX_LINE := by
          rw [List.prefix_take_iff]
          refine ⟨?_, hf.length⟩
          have hfb : f <+: buf ++ more := ⟨fs.flatten, hbuf.symm⟩
          exact List.prefix_of_prefix_length_le hfb (List.prefix_append _ _)
            (Nat.le_trans hf.length hlen)
        obtain ⟨body, -, he⟩ := hf.frame
        refine hnot (hpre.subset ?_)
        rw [he]
        exact List.mem_append_right _ (List.mem_singleton_self _)
    · have htake : buf.take MAX_LINE = buf := List.take_of_length_le (by omega)
      rw [htake] at hnot h
      refine ⟨?_, hnot⟩
      cases eof with
      | true => rfl
      | false =>
        rw [if_neg (by simp [MAX_LINE]), if_neg (by simpa using hlen)] at h
        cases h

/-- Without a newline it reads no line. -/
theorem readLineLimited_dry {buf rest : List UInt8} {eof : Bool} {rl : ReadLine}
    (hbuf : 0x0A ∉ buf) (h : readLineLimited MAX_LINE buf eof = some (rl, rest)) :
    (∀ l, rl ≠ .line l) ∧ 0x0A ∉ rest := by
  unfold readLineLimited at h
  rw [splitLine_eq] at h
  split at h
  · next l r hsplit =>
    obtain ⟨⟨body, -, rfl⟩, htake⟩ := Framing.isFrame_of_splitAfter hsplit
    refine absurd (List.take_subset MAX_LINE buf ?_) hbuf
    rw [htake]
    simp
  · split at h
    · cases h
      exact ⟨fun _ he => (nomatch he), hbuf⟩
    · split at h
      · cases h
        exact ⟨fun _ he => (nomatch he), fun hd => hbuf (List.drop_subset _ _ hd)⟩
      · cases h

/-! ## To the supervisor -/

/-- The lines on their way to the supervisor's connection `k`. -/
inductive Uplink (k : Conn) (up : List UInt8) (lines : List (List UInt8)) : Prop
  | flows (tail : List UInt8) (stream : k.buf ++ (k.sock ++ tail) = lines.flatten)
      (opened : k.closed = false → tail = up)
  /-- The stream has ended in the middle of a line. -/
  | dry (closed : k.closed = true) (newline : 0x0A ∉ k.buf ++ k.sock)

namespace Uplink

variable {k k' : Conn} {up : List UInt8} {lines : List (List UInt8)}

/-- Bytes move from the socket to the `BufReader`. -/
theorem keep (h : Uplink k up lines) (hin : k'.buf ++ k'.sock = k.buf ++ k.sock)
    (hclosed : k'.closed = k.closed) : Uplink k' up lines := by
  cases h with
  | flows tail hstream hopen =>
    refine .flows tail ?_ fun hc => hopen (hclosed ▸ hc)
    rw [← List.append_assoc, hin, List.append_assoc, hstream]
  | dry hc hn => exact .dry (hclosed.trans hc) (hin ▸ hn)

/-- `n` bytes arrive. -/
theorem arrive (h : Uplink k up lines) (hopen : k.closed = false) (n : Nat) :
    Uplink { k with sock := k.sock ++ up.take n } (up.drop n) lines := by
  cases h with
  | flows tail hstream hup =>
    obtain rfl := hup hopen
    refine .flows (tail.drop n) ?_ fun _ => rfl
    show k.buf ++ (k.sock ++ tail.take n ++ tail.drop n) = _
    rw [List.append_assoc, List.take_append_drop, hstream]
  | dry hc => rw [hopen] at hc; cases hc

/-- The stream ends, and what has arrived may be lost in part. -/
theorem close (h : Uplink k up lines) {sock : List UInt8} (hsock : sock <+: k.sock)
    (hbuf : k'.buf = k.buf) (hsock' : k'.sock = sock) (hclosed : k'.closed = true) :
    Uplink k' up lines := by
  obtain ⟨lost, hlost⟩ := hsock
  cases h with
  | flows tail hstream hopen =>
    refine .flows (lost ++ tail) ?_ fun hc => ?_
    · rw [hbuf, hsock', ← List.append_assoc sock, hlost, hstream]
    · rw [hclosed] at hc
      cases hc
  | dry hc hn =>
    refine .dry hclosed fun hm => hn ?_
    rw [hbuf, hsock', List.mem_append] at hm
    rw [List.mem_append, ← hlost, List.mem_append]
    exact hm.imp_right .inl

/-- One more line is written. -/
theorem write (h : Uplink k up lines) (line : List UInt8) :
    Uplink k (up ++ line) (lines ++ [line]) := by
  cases h with
  | flows tail hstream hopen =>
    refine .flows (tail ++ line) ?_ fun hc => by rw [hopen hc]
    rw [List.flatten_append, ← hstream]
    simp
  | dry hc hn => exact .dry hc hn

/-- A read finds the first line, or it finds no line. -/
theorem read (h : Uplink k up lines) (hlines : ∀ f ∈ lines, GoodLine f) {rl : ReadLine}
    {rest : List UInt8}
    (hread : readLineLimited MAX_LINE k.buf (k.closed && k.sock.isEmpty) = some (rl, rest))
    (hbuf : k'.buf = rest) (hsock : k'.sock = k.sock) (hclosed : k'.closed = k.closed) :
    (∃ f fs t, lines = f :: fs ∧ fromUtf8 f = some t ∧ rl = .line t ∧ Uplink k' up fs) ∨
      ((∀ l, rl ≠ .line l) ∧ ∀ lines', Uplink k' up lines') := by
  cases h with
  | flows tail hstream hopen =>
    rcases readLineLimited_lines hlines hstream hread with ⟨f, fs, t, hl, ht, hrl, hrest⟩ | ⟨heof, hn⟩
    · refine .inl ⟨f, fs, t, hl, ht, hrl, .flows tail ?_ fun hc => hopen (hclosed ▸ hc)⟩
      rw [hbuf, hsock, hrest]
    · obtain ⟨hc, hempty⟩ := Bool.and_eq_true_iff.mp heof
      obtain ⟨hline, hrest⟩ := readLineLimited_dry hn hread
      refine .inr ⟨hline, fun lines' => .dry (hclosed.trans hc) ?_⟩
      rw [hbuf, hsock, List.isEmpty_iff.mp hempty, List.append_nil]
      exact hrest
  | dry hc hn =>
    rw [List.mem_append, not_or] at hn
    obtain ⟨hline, hrest⟩ := readLineLimited_dry hn.1 hread
    refine .inr ⟨hline, fun lines' => .dry (hclosed.trans hc) ?_⟩
    rw [hbuf, hsock, List.mem_append, not_or]
    exact ⟨hrest, hn.2⟩

end Uplink

/-! ## To the client -/

/-- The lines on their way to the client. -/
inductive Downlink (st : Stream) (down : List UInt8) (lines : List (List UInt8)) : Prop
  | flows (coming : Coming st.held (st.unread ++ down) lines)
  /-- The stream has ended. -/
  | dry (closed : st.closed = true) (unread : st.unread = []) (held : st.held = [])

namespace Downlink

variable {st st' : Stream} {down : List UInt8} {lines : List (List UInt8)}

/-- Bytes move from the socket to the `BufReader`. -/
theorem keep (h : Downlink st down lines) (hheld : st'.held = st.held)
    (hun : st'.unread = st.unread) (hclosed : st.closed = true → st'.closed = true) :
    Downlink st' down lines := by
  cases h with
  | flows hc =>
    refine .flows ?_
    rw [hheld, hun]
    exact hc
  | dry hc hu hh => exact .dry (hclosed hc) (hun.trans hu) (hheld.trans hh)

/-- `n` bytes arrive. -/
theorem arrive (h : Downlink st down lines) (hopen : st.closed = false) (n : Nat) :
    Downlink { st with sock := st.sock ++ down.take n } (down.drop n) lines := by
  cases h with
  | flows hc =>
    refine .flows ?_
    show Coming st.held (st.buf ++ (st.sock ++ down.take n) ++ down.drop n) lines
    rw [List.append_assoc, List.append_assoc, List.take_append_drop, ← List.append_assoc]
    exact hc
  | dry hc => rw [hopen] at hc; cases hc

/-- One more line is written. -/
theorem write (h : Downlink st down lines) {line : List UInt8} (hline : line ≠ []) :
    Downlink st (down ++ line) (lines ++ [line]) := by
  cases h with
  | flows hc =>
    refine .flows ?_
    rw [← List.append_assoc]
    exact hc.more hline
  | dry hc hu hh => exact .dry hc hu hh

/-- The `read_line` future is dropped. -/
theorem cut (h : Downlink st down lines) : Downlink st.cut down lines := by
  cases h with
  | flows hc => exact .flows hc.cut
  | dry hc hu hh => exact .dry hc hu rfl

/-- A part of a line is taken. -/
theorem hold (h : Downlink st down lines) (hlines : ∀ f ∈ lines, IsFrame 0x0A f)
    (hpoll : st.poll = some (none, st')) : Downlink st' down lines := by
  rcases Stream.poll_cases hpoll with ⟨-, -, he, -⟩ | ⟨l, -, he, -⟩ | ⟨x, hx, -, hun, hheld⟩
  · cases he
  · cases he
  · cases h with
    | flows hc =>
      refine .flows ?_
      rw [hheld]
      exact hc.hold hlines (by rw [hun, List.append_assoc]) hx
    | dry hc hu hh =>
      obtain ⟨rfl, hun'⟩ := List.append_eq_nil_iff.mp (hun.symm.trans hu)
      exact .dry ((Stream.closed_of_poll hpoll).trans hc) hun' (by rw [hheld, hh]; rfl)

/-- What is read as a line is a part of the first line that was written. -/
theorem read (h : Downlink st down lines) (hlines : ∀ f ∈ lines, IsFrame 0x0A f)
    {l : List UInt8} (hl : l ≠ []) (hpoll : st.poll = some (some l, st')) :
    ∃ before after fs, lines = (before ++ (l ++ after)) :: fs ∧ Downlink st' down fs := by
  rcases Stream.poll_cases hpoll with
    ⟨hu, hclosed, he, hheld⟩ | ⟨m, hm, he, hun, hheld⟩ | ⟨x, -, he, -⟩
  · -- the stream ends in the middle of a line
    cases he
    cases h with
    | flows hc =>
      obtain ⟨lost, x, gs, rfl⟩ := hc.held_part hl
      refine ⟨lost, x, gs, rfl, .dry ((Stream.closed_of_poll hpoll).trans hclosed) ?_ hheld⟩
      exact Stream.unread_of_poll hpoll hu
    | dry _ _ hh => exact absurd hh hl
  · cases he
    cases h with
    | flows hc =>
      obtain ⟨lost, gs, rfl, hrest⟩ := hc.take hlines (r := st'.unread ++ down)
        (by rw [hun, List.append_assoc]) hm
      refine ⟨lost, [], gs, by rw [List.append_nil], .flows ?_⟩
      rw [hheld]
      exact hrest
    | dry _ hu =>
      rw [hu] at hun
      exact absurd (List.append_eq_nil_iff.mp hun.symm).1 hm.ne_nil
  · cases he

end Downlink

end EasyTierMac.Wire
