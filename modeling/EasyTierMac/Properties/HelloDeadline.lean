import EasyTierMac.Supervisor.HelloPhase
import EasyTierMac.Supervisor.Lines
import EasyTierMac.Supervisor.Runs

/-!
# `HELLO_TIMEOUT` bounds a read, not the hello

A connection has `HELLO_TIMEOUT` to complete its hello; then it should be closed
(`MeetsDeadline`). But every read of the line gets the whole timeout. So the deadline is
met exactly when what arrives in time decides the line, or nothing arrives once the
timeout has been armed (`meetsDeadline_iff`). A peer that sends one byte every nine
seconds stays for minutes, and may pass (`hello_trickles`).
-/

namespace EasyTierMac.Supervisor

variable {env : Env}

/-- A connection that passes `read_hello` has completed its line by the deadline, and a
connection that has not passed by then is closed. -/
structure MeetsDeadline (env : Env) (peer : Peer) : Prop where
  passed : (helloPhase peer).how.passes env = true → (helloPhase peer).time ≤ HELLO_TIMEOUT
  closed : ¬ ((helloPhase peer).how.passes env = true ∧ (helloPhase peer).time ≤ HELLO_TIMEOUT) →
    (helloPhase peer).how.passes env = false ∧ (helloPhase peer).time ≤ HELLO_TIMEOUT

/-! ## What arrives in time -/

/-- The bytes that arrive by the deadline, from time `now` on. -/
def inTime (now : Nat) : List Arrival → List UInt8
  | [] => []
  | ⟨gap, bytes⟩ :: arrivals =>
    if now + gap ≤ HELLO_TIMEOUT then bytes ++ inTime (now + gap) arrivals else []

/-- The stream ends by the deadline. -/
def hangsUp (hangup : Option Nat) (now : Nat) : List Arrival → Bool
  | [] => hangup.any fun gap => now + gap ≤ HELLO_TIMEOUT
  | ⟨gap, _⟩ :: arrivals => hangsUp hangup (now + gap) arrivals

/-- No byte arrives later than at the moment of arming and by the deadline. -/
def silent (now : Nat) : List Arrival → Bool
  | [] => true
  | ⟨gap, bytes⟩ :: arrivals =>
    (bytes.isEmpty || now + gap == 0 || HELLO_TIMEOUT < now + gap) && silent (now + gap) arrivals

/-- A line is decided: it is complete, or too long, or the stream ends. -/
def Decided (bytes : List UInt8) (ends : Bool) : Prop :=
  0x0A ∈ bytes ∨ MAX_LINE ≤ bytes.length ∨ ends = true

/-- What arrives by the deadline decides the line, or nothing arrives after the first
moment. -/
def Peer.OnTime (peer : Peer) : Prop :=
  Decided (inTime 0 peer.arrivals) (hangsUp peer.hangup 0 peer.arrivals) ∨
    silent 0 peer.arrivals = true

/-! ## One read after the other -/

theorem Decided.append {buf : List UInt8} (h : Decided buf false) (more : List UInt8)
    (ends : Bool) : Decided (buf ++ more) ends := by
  rcases h with h | h | h
  · exact .inl (List.mem_append_left more h)
  · refine .inr (.inl ?_)
    rw [List.length_append]
    omega
  · cases h

/-- `read_line_limited` returns once the line is decided. -/
theorem readLineLimited_isSome {buf : List UInt8} {eof : Bool} :
    (readLineLimited MAX_LINE buf eof).isSome = true ↔ Decided buf eof := by
  constructor
  · intro h
    -- each way to return presupposes one of the three
    by_contra hnot
    unfold Decided at hnot
    rw [not_or, not_or] at hnot
    obtain ⟨hnl, hlen, heof⟩ := hnot
    obtain ⟨⟨rl, rest⟩, hread⟩ := Option.isSome_iff_exists.mp h
    cases rl with
    | line l =>
      obtain ⟨f, ⟨body, -, rfl⟩, -, hbuf⟩ := readLineLimited_line hread
      apply hnl
      rw [hbuf]
      simp
    | eof | err msg =>
      cases readLineLimited_stop hread (fun _ => nofun) with
      | tooLong long => exact hlen long
      | notUtf8 frame short bad first =>
        obtain ⟨body, -, rfl⟩ := frame
        apply hnl
        rw [first]
        simp
      | unterminated ends | clean ends => exact heof ends
  · intro h
    cases hread : readLineLimited MAX_LINE buf eof with
    | some p => rfl
    | none =>
      exfalso
      have hnl := readLineLimited_none hread
      -- otherwise there is no line to come, and the next call finds out
      have hno : NoLine eof buf := by
        rcases h with h | h | h
        · exact absurd h hnl
        · exact .tooLong h fun hm => hnl (List.mem_of_mem_take hm)
        · by_cases hnil : buf = []
          · exact .clean h hnil
          · exact .unterminated h hnil hnl
      obtain ⟨rl, rest, hsome, -⟩ := hno.read
      rw [hread] at hsome
      cases hsome

/-- Time does not run backwards. -/
theorem le_awaitHello {hangup : Option Nat} {arrivals : List Arrival} {buf : List UInt8}
    {now since : Nat} (h : now ≤ since + HELLO_TIMEOUT) :
    now ≤ (awaitHello hangup buf now since arrivals).time := by
  induction arrivals generalizing buf now since with
  | nil =>
    unfold awaitHello
    split
    · exact Nat.le_refl now
    · cases hangup with
      | none => exact h
      | some gap =>
        simp only [awaitHangup]
        split
        · split
          · exact Nat.le_add_right now gap
          · exact h
        · exact h
  | cons arrival arrivals ih =>
    obtain ⟨gap, bytes⟩ := arrival
    unfold awaitHello
    split
    · exact Nat.le_refl now
    · split
      · next hin =>
        split
        · have hle := @ih buf _ _ hin
          omega
        · have hle := @ih (buf ++ bytes) (now + gap) (now + gap) (Nat.le_add_right ..)
          omega
      · exact h

/-- Nothing arrives in time after the deadline. -/
theorem late {hangup : Option Nat} {arrivals : List Arrival} {now : Nat}
    (h : HELLO_TIMEOUT < now) :
    inTime now arrivals = [] ∧ hangsUp hangup now arrivals = false ∧ silent now arrivals = true := by
  induction arrivals generalizing now with
  | nil =>
    refine ⟨rfl, ?_, rfl⟩
    cases hangup with
    | none => rfl
    | some gap => simp [hangsUp]; omega
  | cons arrival arrivals ih =>
    obtain ⟨gap, bytes⟩ := arrival
    obtain ⟨-, hends, hsilent⟩ := @ih (now + gap) (by omega)
    refine ⟨?_, hends, ?_⟩
    · exact if_neg (by omega)
    · have hlate : HELLO_TIMEOUT < now + gap := by omega
      simp [silent, hsilent, hlate]

/-- **The deadline, from any moment on.** A read waits since `since`, and `buf` has been
received by `now`, all of it in time. -/
theorem awaitHello_le_iff {hangup : Option Nat} {arrivals : List Arrival} {buf : List UInt8}
    {now since : Nat} (hsince : since ≤ now) (hnow : now ≤ HELLO_TIMEOUT) :
    (awaitHello hangup buf now since arrivals).time ≤ HELLO_TIMEOUT ↔
      Decided (buf ++ inTime now arrivals) (hangsUp hangup now arrivals) ∨
        since = 0 ∧ silent now arrivals = true := by
  -- a read that times out does so in time if it is the first
  have htimeout : since + HELLO_TIMEOUT ≤ HELLO_TIMEOUT ↔ since = 0 := by omega
  induction arrivals generalizing buf now since with
  | nil =>
    show _ ↔ Decided (buf ++ []) _ ∨ since = 0 ∧ true = true
    rw [List.append_nil]
    unfold awaitHello
    cases hline : readLineLimited MAX_LINE buf false with
    | some p =>
      have hdec : Decided buf false := readLineLimited_isSome.mp (by rw [hline]; rfl)
      have hdec' := hdec.append [] (hangsUp hangup now [])
      rw [List.append_nil] at hdec'
      exact iff_of_true hnow (.inl hdec')
    | none =>
      have hopen : ¬ Decided buf false := by
        rw [← readLineLimited_isSome, hline]
        exact Bool.false_ne_true
      cases hangup with
      | none =>
        show since + HELLO_TIMEOUT ≤ HELLO_TIMEOUT ↔ Decided buf false ∨ _
        rw [htimeout]
        simp [hopen]
      | some gap =>
        obtain ⟨⟨rl, rest⟩, hend⟩ := Option.isSome_iff_exists.mp
          (readLineLimited_isSome.mpr (.inr (.inr rfl)) :
            (readLineLimited MAX_LINE buf true).isSome = true)
        simp only [awaitHangup, hend]
        by_cases hin : now + gap ≤ HELLO_TIMEOUT
        · rw [if_pos (by omega)]
          refine iff_of_true hin (.inl (.inr (.inr ?_)))
          exact decide_eq_true hin
        · have hfalse : hangsUp (some gap) now [] = false := decide_eq_false hin
          rw [hfalse]
          split
          · have hpos : since ≠ 0 := by omega
            exact iff_of_false hin (by simp [hopen, hpos])
          · rw [htimeout]
            simp [hopen]
  | cons arrival arrivals ih =>
    obtain ⟨gap, bytes⟩ := arrival
    have hends : hangsUp hangup now (⟨gap, bytes⟩ :: arrivals) =
        hangsUp hangup (now + gap) arrivals := rfl
    unfold awaitHello
    cases hline : readLineLimited MAX_LINE buf false with
    | some p =>
      have hdec : Decided buf false := readLineLimited_isSome.mp (by rw [hline]; rfl)
      exact iff_of_true hnow (.inl (hdec.append _ _))
    | none =>
      have hopen : ¬ Decided buf false := by
        rw [← readLineLimited_isSome, hline]
        exact Bool.false_ne_true
      dsimp only
      rw [hends]
      by_cases hin : now + gap ≤ HELLO_TIMEOUT
      · -- the bytes arrive in time
        have hbytes : inTime now (⟨gap, bytes⟩ :: arrivals) =
            bytes ++ inTime (now + gap) arrivals := if_pos hin
        have hnlate : decide (HELLO_TIMEOUT < now + gap) = false := decide_eq_false (by omega)
        rw [if_pos (by omega), hbytes]
        by_cases hnil : bytes = []
        · have hrest := @ih buf (now + gap) since (by omega) hin htimeout
          rw [if_pos hnil]
          refine hrest.trans ?_
          simp [hnil, silent]
        · have hrest := @ih (buf ++ bytes) (now + gap) (now + gap) (Nat.le_refl _) hin (by omega)
          rw [if_neg hnil, ← List.append_assoc]
          refine hrest.trans (or_congr_right ?_)
          have hfirst : (bytes.isEmpty || now + gap == 0 || decide (HELLO_TIMEOUT < now + gap))
              = true ↔ now + gap = 0 := by
            rw [hnlate]
            simp [hnil]
          rw [silent, Bool.and_eq_true, hfirst]
          constructor
          · intro h
            exact ⟨by omega, h⟩
          · intro h
            exact h.2
      · -- nothing more arrives in time
        have hlt : HELLO_TIMEOUT < now + gap := by omega
        obtain ⟨-, hfalse, hsilent⟩ := @late hangup arrivals _ hlt
        have hbytes : inTime now (⟨gap, bytes⟩ :: arrivals) = [] := if_neg hin
        have hsil : silent now (⟨gap, bytes⟩ :: arrivals) = true := by
          simp [silent, hsilent, hlt]
        rw [hbytes, List.append_nil, hfalse, hsil]
        split
        · next hread =>
          have hpos : since ≠ 0 := by omega
          refine iff_of_false ?_ (by simp [hopen, hpos])
          split
          · have hle := @le_awaitHello hangup arrivals buf _ _ hread
            omega
          · have hle := @le_awaitHello hangup arrivals (buf ++ bytes) (now + gap) (now + gap)
              (Nat.le_add_right ..)
            omega
        · rw [htimeout]
          simp [hopen]

/-! ## The property -/

theorem meetsDeadline_iff_le (env : Env) (peer : Peer) :
    MeetsDeadline env peer ↔ (helloPhase peer).time ≤ HELLO_TIMEOUT := by
  constructor
  · intro h
    by_cases hpass : (helloPhase peer).how.passes env = true
    · exact h.passed hpass
    · exact (h.closed fun hp => hpass hp.1).2
  · intro hle
    refine ⟨fun _ => hle, fun hnot => ⟨?_, hle⟩⟩
    by_contra hpass
    exact hnot ⟨eq_true_of_ne_false hpass, hle⟩

/-- **When the deadline holds.** For every schedule of arrivals: the hello is completed or
the connection closed by the deadline, exactly when the bytes that arrive by then decide
the line or none of them arrives after the first moment. -/
theorem meetsDeadline_iff (env : Env) (peer : Peer) : MeetsDeadline env peer ↔ peer.OnTime := by
  rw [meetsDeadline_iff_le]
  unfold helloPhase
  rw [awaitHello_le_iff (Nat.le_refl 0) (Nat.zero_le _)]
  unfold Peer.OnTime
  simp

/-- A hello that comes byte by byte, one every nine seconds. -/
def trickle : Peer := ⟨(Client.line Client.helloText).map fun b => ⟨secs 9, [b]⟩, none⟩

/-- It passes `read_hello` after 234 s, and the connection was open all the time. -/
theorem hello_trickles : (helloPhase trickle).how.passes Client.env = true ∧
    (helloPhase trickle).time = secs 234 ∧ ¬ MeetsDeadline Client.env trickle := by
  have hend : (helloPhase trickle).how.passes Client.env = true ∧
      (helloPhase trickle).time = secs 234 := by decide +kernel
  refine ⟨hend.1, hend.2, ?_⟩
  rw [meetsDeadline_iff_le, hend.2]
  decide

end EasyTierMac.Supervisor
