import EasyTierMac.Supervisor.Received

/-!
# The phase before the hello, on a clock

A peer is a list of timed chunks, and maybe an end of its stream (`Peer`). `awaitHello` is
the thread of its connection in `read_hello`: `read_until` reads until the line is
decided, and `set_read_timeout` bounds every one of these reads by `HELLO_TIMEOUT`. Time is
counted from the moment at which the timeout is armed, and what the thread does between
two reads takes none. A chunk that does not fit into one read is read in several that do
not wait.

`awaitHello_run` takes this clock back to the supervisor: what `awaitHello` ends with is a
run of `supervisor`, with the arrivals and the time that the peer lays down.
-/

namespace EasyTierMac.Supervisor

open Transition (System)

/-- How long a read of the phase before the hello may wait. -/
def HELLO_TIMEOUT : Nat := secs 10

/-- Bytes that arrive `gap` after what arrived before them. -/
structure Arrival where
  gap : Nat
  bytes : List UInt8

/-- What a peer sends on a fresh connection. -/
structure Peer where
  arrivals : List Arrival
  /-- It closes its end so long after its last bytes, if it does. -/
  hangup : Option Nat

/-- What `read_line_limited` of `read_hello` returns. -/
inductive HelloRead
  /-- A read waited for `HELLO_TIMEOUT`. -/
  | timeout
  | read (rl : ReadLine)
  deriving DecidableEq

/-- The end of `read_hello`, and when it comes. -/
structure HelloEnd where
  time : Nat
  how : HelloRead
  deriving DecidableEq

/-- A read that has waited since `since` for bytes that do not come. -/
def awaitHangup (buf : List UInt8) (now since : Nat) : Option Nat → HelloEnd
  | none => ⟨since + HELLO_TIMEOUT, .timeout⟩
  | some gap =>
    if now + gap ≤ since + HELLO_TIMEOUT then
      match readLineLimited MAX_LINE buf true with
      | some (rl, _) => ⟨now + gap, .read rl⟩
      | none => ⟨since + HELLO_TIMEOUT, .timeout⟩
    else ⟨since + HELLO_TIMEOUT, .timeout⟩

/-- `read_hello` at time `now`, with `buf` received and a read that waits since `since`. -/
def awaitHello (hangup : Option Nat) (buf : List UInt8) (now since : Nat) :
    List Arrival → HelloEnd
  | [] =>
    match readLineLimited MAX_LINE buf false with
    | some (rl, _) => ⟨now, .read rl⟩
    | none => awaitHangup buf now since hangup
  | ⟨gap, bytes⟩ :: arrivals =>
    match readLineLimited MAX_LINE buf false with
    | some (rl, _) => ⟨now, .read rl⟩
    | none =>
      if now + gap ≤ since + HELLO_TIMEOUT then
        -- the read returns the bytes, and the next one starts to wait
        if bytes = [] then awaitHello hangup buf (now + gap) since arrivals
        else awaitHello hangup (buf ++ bytes) (now + gap) (now + gap) arrivals
      else ⟨since + HELLO_TIMEOUT, .timeout⟩

/-- The pre-hello phase of `handle_connection`. -/
def helloPhase (peer : Peer) : HelloEnd := awaitHello peer.hangup [] 0 0 peer.arrivals

/-- `read_hello` returns `Some`: the line is a hello with the right protocol version. -/
def HelloRead.passes (env : Env) : HelloRead → Bool
  | .read (.line l) =>
    match decodeCmd env.fromStr l with
    | .ok (.hello proto _) => proto == PROTO_VERSION
    | _ => false
  | _ => false

/-! ## Runs of the supervisor -/

/-- Connection `c` is in `read_hello` with `buf` received. -/
structure Awaiting (s : Sys) (c : ConnId) (buf : List UInt8) : Prop where
  running : s.exited = none
  pc : (s.conns c).pc = .readHello
  buf : (s.conns c).buf = buf
  sock : (s.conns c).sock = []
  opened : (s.conns c).closed = false

variable {env : Env} {s₀ s : Sys} {c : ConnId} {buf : List UInt8} {now since : Nat}

/-- The supervisor gets from `s₀` to where `read_hello` of connection `c` ends like this. -/
def Ends (env : Env) (s₀ : Sys) (c : ConnId) (e : HelloEnd) : Prop :=
  ∃ s, (supervisor env).PathBy (fun _ _ => True) s₀ s ∧ s.now = e.time ∧ s.exited = none ∧
    (s.conns c).pc = .readHello ∧
    match e.how with
    | .timeout => True
    | .read rl => ∃ rest, s.readLine c = some (rl, rest)

theorem Awaiting.readLine (h : Awaiting s c buf) :
    s.readLine c = readLineLimited MAX_LINE buf false := by
  unfold Sys.readLine
  rw [h.buf, h.opened]
  rfl

theorem Awaiting.tick (env : Env) (h : Awaiting s c buf) (d : Nat) :
    Awaiting { s with now := s.now + d } c buf ∧
      (supervisor env).step s (.tick d) { s with now := s.now + d } := by
  refine ⟨⟨h.running, h.pc, h.buf, h.sock, h.opened⟩, ?_⟩
  show step env s (.tick d) = _
  simp [step, h.running]

/-- The line is decided. -/
theorem Awaiting.ends (h : Awaiting s c buf)
    (hpath : (supervisor env).PathBy (fun _ _ => True) s₀ s) {rl : ReadLine} {rest : List UInt8}
    (hline : readLineLimited MAX_LINE buf false = some (rl, rest)) :
    Ends env s₀ c ⟨s.now, .read rl⟩ :=
  ⟨s, hpath, rfl, h.running, h.pc, rest, h.readLine ▸ hline⟩

/-- The read waits until it times out. -/
theorem Awaiting.timeout (h : Awaiting s c buf)
    (hpath : (supervisor env).PathBy (fun _ _ => True) s₀ s) {t : Nat} (ht : s.now ≤ t) :
    Ends env s₀ c ⟨t, .timeout⟩ := by
  obtain ⟨hw, hstep⟩ := h.tick env (t - s.now)
  refine ⟨_, hpath.tail trivial hstep, ?_, hw.running, hw.pc, trivial⟩
  show s.now + (t - s.now) = t
  omega

/-- Bytes arrive, and the read returns them. -/
theorem Awaiting.arrive (h : Awaiting s c buf)
    (hpath : (supervisor env).PathBy (fun _ _ => True) s₀ s)
    (hline : readLineLimited MAX_LINE buf false = none) (bytes : List UInt8) :
    ∃ s', (supervisor env).PathBy (fun _ _ => True) s₀ s' ∧ s'.now = s.now ∧
      Awaiting s' c (buf ++ bytes) := by
  let s₁ : Sys := s.modConn c fun k => { k with sock := k.sock ++ bytes }
  have harrive : (supervisor env).step s (.arrive c bytes) s₁ := by
    show step env s (.arrive c bytes) = _
    simp [step, h.running, Sys.arriveStep, h.opened, s₁]
  have hpath₁ := hpath.tail trivial harrive
  have hsock : (s₁.conns c).sock = bytes := by simp [s₁, h.sock]
  by_cases hnil : bytes = []
  · refine ⟨s₁, hpath₁, rfl, h.running, ?_, ?_, ?_, ?_⟩
    · simp [s₁, h.pc]
    · simp [s₁, h.buf, hnil]
    · rw [hsock, hnil]
    · simp [s₁, h.opened]
  · let s₂ : Sys := s₁.modConn c fun k =>
      { k with buf := k.buf ++ k.sock.take bytes.length, sock := k.sock.drop bytes.length }
    have hline₁ : s₁.readLine c = none := by
      unfold Sys.readLine
      simp [s₁, h.buf, h.opened, hline]
    have hrefill : (supervisor env).step s₁ (.conn c (.refill bytes.length)) s₂ := by
      have hpos : 0 < bytes.length := List.length_pos_iff.mpr hnil
      have hpc : (s₁.conns c).pc = .readHello := by simp [s₁, h.pc]
      show step env s₁ (.conn c (.refill bytes.length)) = _
      have hrun : s₁.exited = none := h.running
      simp only [step, hrun, Sys.connStep, hpc, Sys.readHelloStep, Sys.refill, hline₁, hsock]
      simp [hpos, s₂]
    refine ⟨s₂, hpath₁.tail trivial hrefill, rfl, h.running, ?_, ?_, ?_, ?_⟩
    · simp [s₂, s₁, h.pc]
    · simp [s₂, s₁, h.buf, h.sock]
    · simp [s₂, s₁, h.sock]
    · simp [s₂, s₁, h.opened]

/-- The stream ends. -/
theorem Awaiting.hangup (h : Awaiting s c buf)
    (hpath : (supervisor env).PathBy (fun _ _ => True) s₀ s) {rl : ReadLine} {rest : List UInt8}
    (hline : readLineLimited MAX_LINE buf true = some (rl, rest)) :
    Ends env s₀ c ⟨s.now, .read rl⟩ := by
  let s₁ : Sys := s.modConn c fun k => { k with closed := true }
  have hhangup : (supervisor env).step s (.hangup c) s₁ := by
    show step env s (.hangup c) = _
    simp [step, h.running, s₁]
  refine ⟨s₁, hpath.tail trivial hhangup, rfl, h.running, ?_, rest, ?_⟩
  · simp [s₁, h.pc]
  · unfold Sys.readLine
    simp [s₁, h.buf, h.sock, hline]

/-- **The clock is a run.** Whatever the peer does, the supervisor has the run in which
`read_hello` ends as `awaitHello` says. -/
theorem awaitHello_run {hangup : Option Nat} {arrivals : List Arrival} (h : Awaiting s c buf)
    (hpath : (supervisor env).PathBy (fun _ _ => True) s₀ s) (hnow : s.now = now)
    (hsince : now ≤ since + HELLO_TIMEOUT) :
    Ends env s₀ c (awaitHello hangup buf now since arrivals) := by
  -- along the arrivals; the state is the one at the last arrival before the timeout
  induction arrivals generalizing s buf now since with
  | nil =>
    unfold awaitHello
    cases hline : readLineLimited MAX_LINE buf false with
    | some p =>
      obtain ⟨rl, rest⟩ := p
      exact hnow ▸ h.ends hpath hline
    | none =>
      show Ends env s₀ c (awaitHangup buf now since hangup)
      have htimeout := h.timeout hpath (hnow ▸ hsince)
      cases hangup with
      | none => exact htimeout
      | some gap =>
        simp only [awaitHangup]
        split
        · split
          · next rl rest hend =>
            obtain ⟨hw, hstep⟩ := h.tick env gap
            exact hnow ▸ hw.hangup (hpath.tail trivial hstep) hend
          · exact htimeout
        · exact htimeout
  | cons arrival arrivals ih =>
    obtain ⟨gap, bytes⟩ := arrival
    unfold awaitHello
    cases hline : readLineLimited MAX_LINE buf false with
    | some p =>
      obtain ⟨rl, rest⟩ := p
      exact hnow ▸ h.ends hpath hline
    | none =>
      dsimp only
      split
      · next hin =>
        obtain ⟨hw, hstep⟩ := h.tick env gap
        have htick := hpath.tail trivial hstep
        split
        -- an arrival of no bytes: time has passed, and that is all
        · exact ih hw htick (by rw [← hnow]) hin
        · obtain ⟨s', hpath', hnow', hw'⟩ := hw.arrive htick hline bytes
          refine ih hw' hpath' ?_ (Nat.le_add_right ..)
          rw [hnow', ← hnow]
      · exact h.timeout hpath (hnow ▸ hsince)

/-- The same, `k` later. -/
def HelloEnd.after (e : HelloEnd) (k : Nat) : HelloEnd := { e with time := k + e.time }

/-- Only the time since the timeout was armed matters. -/
theorem awaitHello_after (hangup : Option Nat) (buf : List UInt8) (now since k : Nat)
    (arrivals : List Arrival) : awaitHello hangup buf (k + now) (k + since) arrivals =
      (awaitHello hangup buf now since arrivals).after k := by
  have hassoc (gap : Nat) : k + now + gap = k + (now + gap) := Nat.add_assoc ..
  have hlimit : k + since + HELLO_TIMEOUT = k + (since + HELLO_TIMEOUT) := Nat.add_assoc ..
  induction arrivals generalizing buf now since with
  | nil =>
    unfold awaitHello
    cases readLineLimited MAX_LINE buf false with
    | some p => rfl
    | none =>
      cases hangup with
      | none => exact congrArg (HelloEnd.mk · HelloRead.timeout) hlimit
      | some gap =>
        simp only [awaitHangup, hassoc, hlimit, Nat.add_le_add_iff_left]
        split
        · split <;> rfl
        · rfl
  | cons arrival arrivals ih =>
    obtain ⟨gap, bytes⟩ := arrival
    unfold awaitHello
    cases readLineLimited MAX_LINE buf false with
    | some p => rfl
    | none =>
      simp only [hassoc, hlimit, Nat.add_le_add_iff_left]
      split
      · split
        · exact ih _ _ _ (fun _ => Nat.add_assoc ..) hlimit
        · exact ih _ _ _ (fun _ => Nat.add_assoc ..) (Nat.add_assoc ..)
      · rfl

/-- A fresh connection and its peer: the supervisor has the run in which `read_hello` ends
as `helloPhase` says, counted from the moment at which the timeout is armed. -/
theorem helloPhase_run (h : Awaiting s c []) (peer : Peer) :
    Ends env s c ((helloPhase peer).after s.now) := by
  unfold helloPhase
  rw [← awaitHello_after]
  exact awaitHello_run h .refl rfl (by omega)

end EasyTierMac.Supervisor
