import EasyTierMac.Supervisor.Dialog

/-!
# The command loop takes its stream line by line

`Exact` compares what the command loop of a connection has done with the bytes that its
reads returned, from the first byte of the hello on. The reference is `linesOf`: the lines
of that stream up to the first that is too long, not terminated or not UTF-8. How the
stream was cut into reads does not enter, and the line of the hello is simply the first.
-/

namespace EasyTierMac.Supervisor

open Rust (Text)

variable {env : Env}

/-- What the lines after the hello ask of the command loop. -/
def requests (env : Env) (h : Heard) : List Began :=
  (linesOf h.input).1.tail.filterMap (asked env)

/-- What connection `c` has read, done and written, against the bytes it was sent. -/
structure Exact (env : Env) (s : Sys) (c : ConnId) (h : Heard) : Prop where
  /-- The reads return what arrived, each byte once and in order. -/
  input : h.Complete (s.conns c)
  hello : ∃ hello, (linesOf h.input).1.head? = some hello ∧ SaysHello env hello
  /-- What the loop has set about, in order, are the first of the requests. -/
  order : h.began <+: requests env h
  /-- Where it waits for more bytes, it has taken all of them. -/
  waits : (s.conns c).pc = .loop → s.readLine c = none → h.began = requests env h
  /-- The line that it reads next is the next of them. -/
  next : ∀ {l rest}, (s.conns c).pc = .loop → s.readLine c = some (.line l, rest) →
    ∃ later, requests env h = h.began ++ ((asked env l).toList ++ later)
  /-- Where no further line can be read it has taken all of them, and it ends. -/
  ends : ∀ {rl rest}, (s.conns c).pc = .loop → s.readLine c = some (rl, rest) →
    (∀ l, rl ≠ .line l) → h.began = requests env h ∧ NoLine (s.conns c).eof (linesOf h.input).2 ∧
      ∀ {ans s'}, s.connStep env c ans = some s' → (s'.conns c).pc = .ended
  /-- It has ended nowhere else, unless a read failed. -/
  finished : (s.conns c).pc.serving = .over → h.failed = true ∨
    h.began = requests env h ∧ NoLine (s.conns c).eof (linesOf h.input).2
  /-- Each request has its one reply, in order; the one that is being processed has none yet. -/
  replies : ∃ answered pending, h.began = answered ++ pending ∧
    List.Forall₂ Began.Answers answered (s.conns c).wrote.tail ∧
    pending.length = if (s.conns c).pc.serving = .handling then 1 else 0

/-- What has been taken of the stream are the first of its lines. -/
theorem Log.requests_eq {k : Conn} {h : Heard} {ls : List Text} {rest : List UInt8}
    {replies : List Event} (hlog : Log env k h ls rest replies) :
    requests env h = h.began ++ (linesOf rest).1.filterMap (asked env) ∧
      (linesOf h.input).2 = (linesOf rest).2 ∧
      ∃ hello, (linesOf h.input).1.head? = some hello ∧ SaysHello env hello := by
  obtain ⟨hello, hsays, hread⟩ := hlog.read
  have he := linesOf_of_readOff hread
  refine ⟨?_, by rw [he], hello, by rw [he]; rfl, hsays⟩
  unfold requests
  rw [he, hlog.began]
  exact List.filterMap_append

variable {s : Sys} {c : ConnId} {h : Heard}

/-- Away from the top of the loop nothing is said about the next line. -/
theorem Exact.of_ne_loop (hC : h.Complete (s.conns c)) (hnot : (s.conns c).pc ≠ .loop)
    (hello : ∃ hello, (linesOf h.input).1.head? = some hello ∧ SaysHello env hello)
    (order : h.began <+: requests env h)
    (finished : (s.conns c).pc.serving = .over → h.failed = true ∨
      h.began = requests env h ∧ NoLine (s.conns c).eof (linesOf h.input).2)
    (replies : ∃ answered pending, h.began = answered ++ pending ∧
      List.Forall₂ Began.Answers answered (s.conns c).wrote.tail ∧
      pending.length = if (s.conns c).pc.serving = .handling then 1 else 0) : Exact env s c h where
  input := hC
  hello := hello
  order := order
  waits he := absurd he hnot
  next he := absurd he hnot
  ends he := absurd he hnot
  finished := finished
  replies := replies

/-- Before the hello is answered nothing has been asked for. -/
theorem Exact.of_greeting {hello : Text} (hC : h.Complete (s.conns c))
    (hpc : (s.conns c).pc.greets = true) (accept : SaysHello env hello)
    (read : ReadOff h.input [hello] (s.conns c).buf) (began : h.began = [])
    (wrote : (s.conns c).wrote = []) : Exact env s c h := by
  have hserving : (s.conns c).pc.serving = .greeting := by
    revert hpc
    cases (s.conns c).pc <;> simp [ConnPc.greets, ConnPc.serving]
  have hnot : (s.conns c).pc ≠ .loop := by
    intro he
    rw [he] at hserving
    cases hserving
  refine .of_ne_loop hC hnot ⟨hello, ?_, accept⟩ ?_ ?_ ?_
  · rw [linesOf_of_readOff read]
    rfl
  · rw [began]
    exact List.nil_prefix
  · intro he
    rw [hserving] at he
    cases he
  · refine ⟨[], [], by rw [began]; rfl, ?_, ?_⟩
    · rw [wrote]
      exact .nil
    · rw [hserving]
      rfl

/-- At the top of the loop. -/
theorem Exact.of_loop {ls : List Text} {replies : List Event} (hC : h.Complete (s.conns c))
    (hpc : (s.conns c).pc = .loop) (hlog : Log env (s.conns c) h ls (s.conns c).buf replies)
    (answered : List.Forall₂ Began.Answers h.began replies) : Exact env s c h := by
  obtain ⟨hall, hrest, hhello⟩ := hlog.requests_eq
  have hserving : (s.conns c).pc.serving = .loop := by
    rw [hpc]
    rfl
  -- nothing of the buffer can be read
  have hdry (he : linesOf (s.conns c).buf = ([], (s.conns c).buf)) :
      h.began = requests env h ∧ (linesOf h.input).2 = (s.conns c).buf := by
    rw [hall, hrest, he]
    exact ⟨(List.append_nil _).symm, rfl⟩
  refine ⟨hC, hhello, ?_, ?_, ?_, ?_, ?_, ?_⟩
  · rw [hall]
    exact List.prefix_append ..
  · intro _ hline
    exact (hdry (linesOf_dry (readLineLimited_none hline))).1
  · intro l rest _ hline
    obtain ⟨f, hf, htext, hbuf⟩ := readLineLimited_line hline
    refine ⟨(linesOf rest).1.filterMap (asked env), ?_⟩
    rw [hall, hbuf, linesOf_line hf htext]
    cases hask : asked env l <;> simp [hask]
  · intro rl rest _ hline hrl
    have hno : NoLine (s.conns c).eof (s.conns c).buf := readLineLimited_stop hline hrl
    obtain ⟨hbegan, htail⟩ := hdry hno.linesOf_eq
    refine ⟨hbegan, htail ▸ hno, ?_⟩
    intro ans s' hstep
    rcases loop_cases hpc hstep with ⟨n, -, hnone, -⟩ | ⟨-, rfl⟩ | ⟨rl', rest', -, hline', rfl⟩
    · rw [hnone] at hline
      cases hline
    · simp
    · rw [hline'] at hline
      cases hline
      cases rl with
      | eof => simp [Sys.loopLine]
      | err msg => simp [Sys.loopLine]
      | line l => exact absurd rfl (hrl l)
  · intro he
    rw [hserving] at he
    cases he
  · obtain ⟨greet, -, hwrote⟩ := hlog.wrote
    refine ⟨h.began, [], (List.append_nil _).symm, ?_, ?_⟩
    · rw [hwrote]
      exact answered
    · rw [hserving]
      rfl

/-- While a line is being processed. -/
theorem Exact.of_handling {ls : List Text} {replies : List Event} {old : List Began} {b : Began}
    (hC : h.Complete (s.conns c)) (busy : b.Busy (s.conns c).pc)
    (hlog : Log env (s.conns c) h ls (s.conns c).buf replies) (began : h.began = old ++ [b])
    (answered : List.Forall₂ Began.Answers old replies) : Exact env s c h := by
  obtain ⟨hall, -, hhello⟩ := hlog.requests_eq
  have hserving := busy.serving
  have hnot : (s.conns c).pc ≠ .loop := by
    intro he
    rw [he] at hserving
    cases hserving
  refine .of_ne_loop hC hnot hhello ?_ ?_ ?_
  · rw [hall]
    exact List.prefix_append ..
  · intro he
    rw [hserving] at he
    cases he
  · obtain ⟨greet, -, hwrote⟩ := hlog.wrote
    refine ⟨old, [b], began, ?_, ?_⟩
    · rw [hwrote]
      exact answered
    · rw [hserving]
      rfl

/-- After the loop. -/
theorem Exact.of_finished {ls : List Text} {rest : List UInt8} {replies : List Event}
    (hC : h.Complete (s.conns c)) (hpc : (s.conns c).pc.serving = .over)
    (hlog : Log env (s.conns c) h ls rest replies)
    (answered : List.Forall₂ Began.Answers h.began replies)
    (stop : h.failed = true ∨ NoLine (s.conns c).eof rest) : Exact env s c h := by
  obtain ⟨hall, hrest, hhello⟩ := hlog.requests_eq
  have hnot : (s.conns c).pc ≠ .loop := by
    intro he
    rw [he] at hpc
    cases hpc
  refine .of_ne_loop hC hnot hhello ?_ ?_ ?_
  · rw [hall]
    exact List.prefix_append ..
  · intro _
    refine stop.imp_right fun hno => ?_
    rw [hall, hrest, hno.linesOf_eq]
    exact ⟨(List.append_nil _).symm, hno⟩
  · obtain ⟨greet, -, hwrote⟩ := hlog.wrote
    refine ⟨h.began, [], (List.append_nil _).symm, ?_, ?_⟩
    · rw [hwrote]
      exact answered
    · rw [hpc]
      rfl

/-- **The framing is exact.** Whatever a peer sends, and however its bytes are cut into
reads: the command loop of a connection that was granted the lease sets about what its
lines ask, one after the other, replies to each once, and ends where the lines end. -/
theorem commands_exact {p : Sys × (ConnId → Heard)} (h : (hearing env).Reachable p) {c : ConnId}
    (hgranted : (p.1.conns c).granted = true) : Exact env p.1 c (p.2 c) := by
  have hC := (heeded_of_reachable h c).complete
  cases (heeded_of_reachable h c).dialog with
  | screening pc =>
    have hnew : (p.1.conns c).pc.stage.isNew = true := by
      rcases ConnPc.of_screening pc with hpc | hpc <;> rw [hpc] <;> rfl
    have hng := (owned_of_reachable (reachable_of_hearing h)).isNew c hnew
    exact absurd (hgranted.symm.trans hng) (by decide)
  | away pc refused => exact absurd (hgranted.symm.trans refused) (by decide)
  | greeting pc accept read began wrote => exact .of_greeting hC pc accept read began wrote
  | loop pc log answered => exact .of_loop hC pc log answered
  | handling busy log began answered => exact .of_handling hC busy log began answered
  | finished pc log answered stop => exact .of_finished hC pc log answered stop

/-- A peer sends its hello, a `stop` and a line that does not decode in one packet. -/
theorem commands_exact_pipelined :
    ∃ p, (hearing Client.env).Reachable p ∧ (p.1.conns 0).granted = true ∧
      (p.1.conns 0).wrote.tail =
        [.coreStopped "already_stopped", .error "bad_request" "unexpected line"] ∧
      Exact Client.env p.1 0 (p.2 0) := by
  obtain ⟨s, hs, hp⟩ := exists_reachableBy Client.env (fun _ _ => True)
    ([Client.boot, [.accept (some 501), .conn 0 .done], Client.send 0 (Client.line Client.helloText ++
        (Client.line Client.stopText ++ Client.line ['?'])), Client.own 0,
      [.conn 0 .done, .conn 0 .done, .conn 0 .done, .conn 0 .done, .conn 0 .done]].flatten)
    (fun s => decide ((s.conns 0).granted = true ∧ (s.conns 0).wrote.tail =
      [.coreStopped "already_stopped", .error "bad_request" "unexpected line"]))
    (by decide +kernel)
  obtain ⟨hg, hwrote⟩ := of_decide_eq_true hp
  obtain ⟨heard, hr⟩ := hs.recording (fun _ => {}) (noteHeard Client.env)
  exact ⟨(s, heard), hr, hg, hwrote, commands_exact hr hg⟩

end EasyTierMac.Supervisor
