import EasyTierMac.Supervisor.LeaseView
import EasyTierMac.Framing

/-!
# What a peer sent first

`listening` is the supervisor with a record of the bytes that arrived on each
connection since it was accepted. The state itself keeps only the bytes that are
still to be read, so this record is what "the first line of a connection" means
(`firstLine`). Whoever gets past the gate has a uid that may connect, and whoever gets
past `read_hello` has sent a hello with the right protocol version first
(`Screened`).
-/

namespace EasyTierMac.Supervisor

open Function (update update_apply)
open Rust (Text fromUtf8)
open Transition (System)

/-! ## The record -/

/-- The bytes that arrived on each connection. -/
abbrev Received := ConnId → List UInt8

/-- What a step adds to the record. -/
def noteReceived (s : Sys) (a : Action) (received : Received) : Received :=
  match a with
  | .arrive c bytes => update received c (received c ++ bytes)
  | .accept _ => update received s.nConns []
  | _ => received

/-- The supervisor, with a record of what arrived. -/
def listening (env : Env) : System (Sys × Received) Action :=
  (supervisor env).recording (fun _ => []) noteReceived

theorem reachable_of_listening {env : Env} {p : Sys × Received} (h : (listening env).Reachable p) :
    (supervisor env).Reachable p.1 :=
  System.ReachableBy.of_recording (P := fun _ _ => True) h

/-- The first line of a stream, as `read_line_limited` reads it. -/
def firstLine (bytes : List UInt8) : Option Text :=
  match readLineLimited MAX_LINE bytes false with
  | some (.line l, _) => some l
  | _ => none

/-- The first line of the stream is a hello with the protocol version of the
supervisor. -/
def SaidHello (env : Env) (bytes : List UInt8) : Prop :=
  ∃ l takeover, firstLine bytes = some l ∧
    decodeCmd env.fromStr l = .ok (.hello PROTO_VERSION takeover)

/-! ## Reading does not look ahead -/

theorem splitLine_eq (xs : List UInt8) : splitLine xs = Framing.splitAfter 0x0A xs := by
  induction xs with
  | nil => rfl
  | cons b bs ih =>
    unfold splitLine Framing.splitAfter
    rw [ih]

theorem splitLine_append {xs l r : List UInt8} (ys : List UInt8) (h : splitLine xs = some (l, r)) :
    splitLine (xs ++ ys) = some (l, r ++ ys) := by
  rw [splitLine_eq] at h ⊢
  exact Framing.splitAfter_append ys h

/-- A line that is complete stays the first line, whatever arrives after it. -/
theorem firstLine_append {bytes rest : List UInt8} {eof : Bool} {l : Text}
    (h : readLineLimited MAX_LINE bytes eof = some (.line l, rest)) (more : List UInt8) :
    firstLine (bytes ++ more) = some l := by
  unfold readLineLimited at h
  split at h
  · next l' r hsplit =>
    have happ := splitLine_append (more.take (MAX_LINE - bytes.length)) hsplit
    rw [← List.take_append] at happ
    unfold firstLine readLineLimited
    rw [happ]
    split at h
    · next t hutf =>
      cases h
      simp [hutf]
    · cases h
  · split at h
    · cases h
    · split at h <;> cases h

theorem SaidHello.append {env : Env} {bytes : List UInt8} (h : SaidHello env bytes)
    (more : List UInt8) : SaidHello env (bytes ++ more) := by
  obtain ⟨l, takeover, hl, hcmd⟩ := h
  refine ⟨l, takeover, ?_, hcmd⟩
  unfold firstLine at hl
  split at hl
  · next l' rest hread =>
    cases hl
    exact firstLine_append hread more
  · cases hl

/-! ## Who gets through -/

/-- In `read_hello` or before it. -/
def ConnPc.unread : ConnPc → Bool
  | .auth | .readHello => true
  | _ => false

/-- About to take the lease. -/
def ConnPc.isLease : ConnPc → Bool
  | .lease _ => true
  | _ => false

/-- The uid of the peer may connect. -/
def Conn.allowed (env : Env) (k : Conn) : Prop :=
  ∃ uid, k.uid = some uid ∧ env.auth.allows uid = true

/-- What the gate and `read_hello` have established about a connection that received
these bytes. -/
structure Screened (env : Env) (k : Conn) (bytes : List UInt8) : Prop where
  unread : k.pc.unread = true → bytes = k.buf ++ k.sock
  hello : k.pc.isLease = true ∨ k.granted = true → SaidHello env bytes
  allowed : k.pc = .readHello ∨ k.pc.isLease = true ∨ k.granted = true → k.allowed env

variable {env : Env} {s s' : Sys}

/-- The thread moves on, past `read_hello` and not to the lease. -/
theorem Screened.later {k k' : Conn} {bytes : List UInt8} (h : Screened env k bytes)
    (hpc : k'.pc.unread = false ∧ k'.pc.isLease = false) (hg : k'.granted = k.granted)
    (huid : k'.uid = k.uid) : Screened env k' bytes where
  unread he := absurd (hpc.1.symm.trans he) Bool.false_ne_true
  hello he := by
    rw [hpc.2, hg] at he
    exact h.hello (.inr (he.resolve_left Bool.false_ne_true))
  allowed he := by
    unfold Conn.allowed
    rw [huid]
    refine h.allowed (.inr (.inr ?_))
    rw [← hg]
    rcases he with he | he | he
    · rw [he] at hpc
      exact absurd hpc.1.symm Bool.false_ne_true
    · rw [hpc.2] at he
      exact absurd he Bool.false_ne_true
    · exact he

/-- Nothing moves but bytes of a connection that is past `read_hello`. -/
theorem Screened.keep {k k' : Conn} {bytes : List UInt8} (h : Screened env k bytes)
    (hpc : k'.pc = k.pc) (hg : k'.granted = k.granted) (huid : k'.uid = k.uid)
    (hbuf : k.pc.unread = true → k'.buf = k.buf ∧ k'.sock = k.sock) :
    Screened env k' bytes where
  unread he := by
    rw [hpc] at he
    rw [(hbuf he).1, (hbuf he).2]
    exact h.unread he
  hello he := h.hello (by rwa [hpc, hg] at he)
  allowed he := by
    unfold Conn.allowed
    rw [huid]
    exact h.allowed (by rwa [hpc, hg] at he)

/-- More bytes arrive. -/
theorem Screened.arrive {k : Conn} {bytes : List UInt8} (h : Screened env k bytes)
    (more : List UInt8) : Screened env { k with sock := k.sock ++ more } (bytes ++ more) where
  unread he := by
    rw [h.unread he]
    exact List.append_assoc ..
  hello he := (h.hello he).append more
  allowed := h.allowed

theorem ConnMove.screened_own {c : ConnId} {ans : Answer} (h : ConnMove env s c ans s')
    {bytes : List UInt8} (hS : Screened env (s.conns c) bytes) :
    Screened env (s'.conns c) bytes := by
  have hlease : ∀ {t}, (s.conns c).pc = .lease t → (s.conns c).pc.isLease = true :=
    fun hpc => hpc ▸ rfl
  cases h with
  | @gate uid hpc huid hauth =>
    refine ⟨fun _ => ?_, fun he => ?_, fun _ => ⟨uid, by simpa using huid, hauth⟩⟩
    · simpa using hS.unread (by rw [hpc]; rfl)
    · exact hS.hello (.inr (by simpa [ConnPc.isLease] using he))
  -- reading moves bytes from the socket to the buffer
  | @refill n hpc hline hn =>
    refine ⟨fun he => ?_, fun he => ?_, fun he => ?_⟩
    · have hbytes := hS.unread (by simpa using he)
      simpa using hbytes
    · exact hS.hello (by simpa using he)
    · have hal := hS.allowed (by simpa using he)
      simpa [Conn.allowed] using hal
  | @helloAccept l rest takeover hpc hline hcmd =>
    have hbytes := hS.unread (by rw [hpc]; rfl)
    refine ⟨fun he => ?_, fun _ => ?_, fun _ => ?_⟩
    -- from the hello on bytes have been taken off
    · simp [ConnPc.unread] at he
    · exact ⟨l, takeover, hbytes ▸ firstLine_append hline _, hcmd⟩
    · have hal := hS.allowed (.inl hpc)
      simpa [Conn.allowed] using hal
  | @accept ans t hlock hpc howner =>
    refine ⟨fun he => ?_, fun _ => hS.hello (.inl (hlease hpc)), fun _ => ?_⟩
    · simp [ConnPc.unread] at he
    · have hal := hS.allowed (.inr (.inl (hlease hpc)))
      simpa [Conn.allowed] using hal
  | @takeover ans old hlock hpc howner =>
    refine ⟨fun he => ?_, fun _ => hS.hello (.inl (hlease hpc)), fun _ => ?_⟩
    · simp [ConnPc.unread] at he
    · have hal := hS.allowed (.inr (.inl (hlease hpc)))
      by_cases ho : c = old.conn <;> simpa [Conn.allowed, ho] using hal
  | @kickWrite old hpc | @kickShutdown old n hpc =>
    by_cases ho : c = old
    · subst ho
      exact hS.later (by simp [ConnPc.unread, ConnPc.isLease]) (by simp) (by simp)
    · exact hS.later (by simp [ConnPc.unread, ConnPc.isLease]) (by simp [ho]) (by simp [ho])
  | sweep hpc hsw | swept hpc hsw =>
    obtain ⟨hooks, n, calls, rfl⟩ := sweepStep_eq hsw
    exact hS.later (by simp [ConnPc.unread, ConnPc.isLease]) (by simp) (by simp)
  | @stopIdle _ r | @stopHook _ r =>
    refine hS.later ?_ (by simp) (by simp)
    cases r <;> simp [Sys.afterStopPc, ConnPc.unread, ConnPc.isLease]
  | loopBlank hpc | stopAgain _ hpc | exit hpc =>
    exact hS.later (by simp [hpc, ConnPc.unread, ConnPc.isLease]) (by simp) (by simp)
  | _ => exact hS.later (by simp [ConnPc.unread, ConnPc.isLease]) (by simp) (by simp)

/-- A connection takes no bytes of another, unless it displaces it. -/
theorem ConnMove.input_of_ne {c d : ConnId} {ans : Answer} (h : ConnMove env s c ans s')
    (hd : d ≠ c) : (s'.conns d).uid = (s.conns d).uid ∧
      ((s'.conns d).buf = (s.conns d).buf ∧ (s'.conns d).sock = (s.conns d).sock ∨
        (s.conns c).pc = .kickShutdown d) := by
  cases h with
  | sweep hpc hsw | swept hpc hsw =>
    obtain ⟨hooks, n, calls, rfl⟩ := sweepStep_eq hsw
    simp [hd]
  | @takeover _ old | @kickWrite old hpc =>
    simp only [Sys.setPc, Sys.setOwner, Sys.kick, Sys.write, Sys.modConn, update_apply, if_neg hd]
    split <;> simp_all
  | @kickShutdown old n hpc =>
    by_cases ho : d = old
    · subst ho
      exact ⟨by simp [hd], .inr hpc⟩
    · simp [hd, ho]
  | _ => simp [hd]

/-- Whoever is granted the lease in a step was about to take it. -/
theorem Move.granted_cases {a : Action} (h : Move env s a s') {d : ConnId}
    (hg : (s'.conns d).granted = true) :
    (s.conns d).granted = true ∨ (s.conns d).pc.isLease = true := by
  cases h with
  | @conn c ans _ h =>
    by_cases hd : d = c
    · subst hd
      cases h with
      | accept _ hpc | takeover _ hpc => exact .inr (hpc ▸ rfl)
      | sweep hpc hsw | swept hpc hsw =>
        obtain ⟨hooks, n, calls, rfl⟩ := sweepStep_eq hsw
        exact .inl (by simpa using hg)
      | @kickWrite old hpc | @kickShutdown old n hpc =>
        by_cases ho : d = old
        · subst ho
          exact .inl (by simpa using hg)
        · exact .inl (by simpa [ho] using hg)
      | _ => exact .inl (by simpa using hg)
    · exact .inl ((h.of_ne hd).2.2 ▸ hg)
  | monitor h =>
    obtain ⟨out, he⟩ := h.conns_eq d
    rw [he] at hg
    exact .inl hg
  | other h =>
    rcases h.conns_eq with ⟨uid, hc, -⟩ | ⟨-, hc⟩
    · rw [hc] at hg
      by_cases hd : d = s.nConns
      · rw [hd, Function.update_self] at hg
        cases hg
      · rw [Function.update_of_ne hd] at hg
        exact .inl hg
    · obtain ⟨sock, closed, he⟩ := hc d
      rw [he] at hg
      exact .inl hg

/-! ## Along a run -/

/-- Whoever is being displaced had the lease. -/
def Displacing (s : Sys) : Prop :=
  ∀ c d, (s.conns c).pc = .kickWrite d ∨ (s.conns c).pc = .kickShutdown d →
    (s.conns d).granted = true

theorem displacing_of_reachable (h : (supervisor env).Reachable s) : Displacing s := by
  refine h.invariant (fun _ _ he => by rcases he with he | he <;> cases he) ?_
  intro s a s' hr hD _ hs c
  have hmove := (step_move hs).2
  have hmono : ∀ d, (s.conns d).granted = true → (s'.conns d).granted = true := by
    intro d hd
    refine hmove.granted_mono ?_ hd
    intro he
    rw [(Accepted.of_reachable hr).ungranted d (Nat.le_of_eq he.symm)] at hd
    cases hd
  refine hmove.forall_pc (Q := fun _ pc => ∀ d, pc = .kickWrite d ∨ pc = .kickShutdown d →
    (s'.conns d).granted = true) ?_ ?_ (fun c d he => hmono d (hD c d he)) c
  · intro d he
    rcases he with he | he <;> cases he
  · intro c ans hm _ d he
    refine hmono d ?_
    cases hm with
    | @takeover _ old hlock hpc howner =>
      -- the displaced connection has the slot
      have hO := owned_of_reachable hr
      have hst := (hO.owner old.slot (Sys.leaseView_owner howner)).1
      have hd : d = old.conn := by
        simp at he
        exact he.symm
      rw [hd]
      exact hO.granted _ hst
    | @kickWrite old hpc | @kickSkip old hpc =>
      have hd : d = old := by
        simp at he
        exact he.symm
      rw [hd]
      exact hD c old (.inl hpc)
    | sweep hpc hsw | swept hpc hsw =>
      obtain ⟨hooks, n, calls, rfl⟩ := sweepStep_eq hsw
      simp at he
    | @stopIdle _ r | @stopHook _ r => cases r <;> simp [Sys.afterStopPc] at he
    | refill hpc => rcases hpc with hpc | hpc <;> simp [hpc] at he
    | _ => simp_all

theorem ConnMove.screened {received : Received} (hr : (supervisor env).Reachable s) {c : ConnId}
    {ans : Answer} (h : ConnMove env s c ans s')
    (hS : ∀ d, Screened env (s.conns d) (received d)) (d : ConnId) :
    Screened env (s'.conns d) (received d) := by
  by_cases hd : d = c
  · subst hd
    exact h.screened_own (hS d)
  obtain ⟨hpc, -, hg⟩ := h.of_ne hd
  obtain ⟨huid, hinput⟩ := h.input_of_ne hd
  refine (hS d).keep hpc hg huid fun hun => ?_
  rcases hinput with hin | hkick
  · exact hin
  · -- a connection that is displaced is past its hello
    have hgr := displacing_of_reachable hr c d (.inr hkick)
    have hnew : (s.leaseView.member d).stage.isNew = true := by
      show (s.conns d).pc.stage.isNew = true
      revert hun
      cases (s.conns d).pc <;> simp [ConnPc.unread, ConnPc.stage, Tenure.Stage.isNew]
    have hng := (owned_of_reachable hr).isNew d hnew
    exact absurd (hng.symm.trans hgr) Bool.false_ne_true

theorem OtherMove.screened {received : Received} {a : Action} (h : OtherMove env s a s')
    (hS : ∀ d, Screened env (s.conns d) (received d)) (d : ConnId) :
    Screened env (s'.conns d) (noteReceived s a received d) := by
  cases h with
  | main hmain hsw | serve hmain hsw =>
    obtain ⟨hooks, n, calls, rfl⟩ := sweepStep_eq hsw
    exact hS d
  | @accept uid hmain =>
    unfold noteReceived
    by_cases hd : d = s.nConns
    · simp only [hd, Function.update_self]
      refine ⟨fun _ => rfl, fun he => ?_, fun he => ?_⟩
      · rcases he with he | he <;> cases he
      · rcases he with he | he | he <;> cases he
    · simp only [Function.update_of_ne hd]
      exact hS d
  | @arrive c bytes hopen =>
    unfold noteReceived
    by_cases hd : d = c
    · subst hd
      simp only [Sys.modConn, Function.update_self]
      exact (hS d).arrive bytes
    · simp only [Sys.modConn, Function.update_of_ne hd]
      exact hS d
  | @hangup c =>
    by_cases hd : d = c
    · subst hd
      have hk : Screened env { s.conns d with closed := true } (received d) :=
        (hS d).keep rfl rfl rfl fun _ => ⟨rfl, rfl⟩
      simpa [noteReceived] using hk
    · simpa [noteReceived, hd] using hS d
  | procs ha => rcases ha with ⟨p, rfl⟩ | ⟨pid, rfl⟩ <;> exact hS d
  | _ => exact hS d

/-- **Nobody gets past the gate unscreened.** -/
theorem screened_of_reachable {p : Sys × Received} (h : (listening env).Reachable p) :
    ∀ c, Screened env (p.1.conns c) (p.2 c) := by
  refine h.invariant (I := fun p => ∀ c, Screened env (p.1.conns c) (p.2 c)) ?_ ?_
  · intro c
    show Screened env {} []
    refine ⟨fun he => (nomatch he), fun he => ?_, fun he => ?_⟩
    · rcases he with he | he <;> cases he
    · rcases he with he | he | he <;> cases he
  · intro p a p' hr hS _ hs c
    obtain ⟨hst, hnote⟩ := hs
    have hr := reachable_of_listening hr
    rw [hnote]
    cases (step_move hst).2 with
    | conn h => exact h.screened hr hS c
    | monitor h =>
      obtain ⟨out, he⟩ := h.conns_eq c
      rw [he]
      exact (hS c).keep rfl rfl rfl fun _ => ⟨rfl, rfl⟩
    | other h => exact h.screened hS c

end EasyTierMac.Supervisor
