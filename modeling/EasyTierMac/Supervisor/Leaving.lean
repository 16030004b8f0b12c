import EasyTierMac.Supervisor.Progress
import EasyTierMac.Supervisor.Lines
import EasyTierMac.Properties.LeaseInvariant

/-!
# How a connection leaves

The thread of a connection that has the lease, from the first line after the grant to `exit(0)`:
it comes back to its command loop from every command (`command_leads`), reads what its peer has
left behind once that has hung up (`loop_leads`), and gets through its teardown
(`teardown_leads`). Nobody else need move for it than the core's monitor, whoever holds the
mutex, and its own hook.
-/

namespace EasyTierMac.Supervisor

open Function (update update_apply)
open Transition.System (Leads Stable)
open Rust (trim)

variable {env : Env} {s s' : Sys} {c : ConnId} {g : Gen} {pc : ConnPc} {A B : Sys → Prop}

/-! ## One step, with the mutex or without -/

theorem At.goes {t : Sys} (hex : t.exited = none) : At c pc (t.setPc c pc) := ⟨hex, by simp⟩

theorem at_leads (hpc : pc.isLease = false) (h : ∀ s, (supervisor env).Reachable s → At c pc s →
      ∃ ans s', ans.calm = true ∧ s.connStep env c ans = some s' ∧ B s') :
    (supervisor env).Leads Winding (At c pc) B := by
  refine conn_leads c fun s hr hs => ⟨hs.exited, ?_, h s hr hs⟩
  rw [hs.pc]
  exact hpc

theorem at_lock_leads (hpc : pc.isLease = false) (h : ∀ s, (supervisor env).Reachable s →
      At c pc s → s.locked = none →
      ∃ ans s', ans.calm = true ∧ s.connStep env c ans = some s' ∧ B s') :
    (supervisor env).Leads Winding (At c pc) B := by
  refine lock_first (fun _ hs => hs.exited) (fun _ _ hst hs => hst.at hs) ?_
  refine conn_leads c fun s hr hsl => ⟨hsl.1.exited, ?_, h s hr hsl.1 hsl.2⟩
  rw [hsl.1.pc]
  exact hpc

/-! ## Commands -/

theorem reply_leads (l : Line) :
    (supervisor env).Leads Winding (At c (.reply l)) (At c .loop) := by
  refine at_leads rfl fun s hr hs => ?_
  exact ⟨.done, (s.write c l).setPc c .loop, rfl, by simp only [Sys.connStep, hs.pc], .goes hs.exited⟩

theorem upHook_leads (g : Gen) :
    (supervisor env).Leads Winding (At c (.upHook g)) (At c .loop) := by
  refine Leads.bind (F := fun l s => At c (.reply l) s) (at_leads rfl fun s hr hs => ?_) reply_leads
  refine ⟨.stat .absent, _, rfl, by simp only [Sys.connStep, hs.pc, Sys.upHook]; rfl, _, .goes ?_⟩
  rw [Sys.runHook_exited]
  exact hs.exited

theorem spawnMonitor_leads (g : Gen) :
    (supervisor env).Leads Winding (At c (.spawnMonitor g)) (At c .loop) := by
  refine Leads.trans (at_leads rfl fun s hr hs => ?_) (upHook_leads g)
  exact ⟨.done, s.spawnMonitor c g, rfl, by simp only [Sys.connStep, hs.pc],
    At.goes (t := s.modMon g _) hs.exited⟩

theorem statusSnap_leads :
    (supervisor env).Leads Winding (At c .statusSnap) (At c .loop) := by
  refine Leads.bind (F := fun l s => At c (.reply l) s)
    (at_lock_leads rfl fun s hr hs hlock => ?_) reply_leads
  refine ⟨.done, _, rfl, ?_,
    ⟨.status s.coreSnapshot.1 s.coreSnapshot.2.1 s.coreSnapshot.2.2, s.report⟩, .goes hs.exited⟩
  simp only [Sys.connStep, hs.pc, Sys.statusSnapStep, Sys.lockSt, hlock, Option.isNone_none, if_true]

/-- A core that runs is reported; no other one is spawned. -/
theorem startLock_leads :
    (supervisor env).Leads Winding (At c .startLock) (At c .loop) := by
  refine Leads.bind (F := fun l s => At c (.reply l) s)
    (at_lock_leads rfl fun s hr hs hlock => ?_) reply_leads
  cases hcore : s.core with
  | running r =>
    refine ⟨.done, s.setPc c _, rfl, ?_, ⟨.coreStarted r.pid r.rpcPort, s.report⟩, .goes hs.exited⟩
    simp only [Sys.connStep, hs.pc, Sys.startLock, Sys.lockSt, hlock, hcore, Option.isNone_none,
      if_true]
  | stopped =>
    refine ⟨.spawn (.noPort "no port"), s.setPc c _, rfl, ?_,
      ⟨.error "spawn_failed" ("could not pick a free port: " ++ "no port"), none⟩, .goes hs.exited⟩
    simp only [Sys.connStep, hs.pc, Sys.startLock, Sys.lockSt, hlock, hcore, Option.isNone_none,
      if_true, Sys.spawnFailed]

/-- `stop` has returned to its caller. -/
def StopReturned (c : ConnId) (r : HookReason) (s : Sys) : Prop :=
  ∃ p : Bool × Option HookId × Option Report, At c (Sys.afterStopPc r p.1 p.2.1 p.2.2) s

theorem stopHook_leads (r : HookReason) (g : Gen) :
    (supervisor env).Leads Winding (At c (.stopHook r g)) (StopReturned c r) := by
  refine at_leads rfl fun s hr hs => ?_
  refine ⟨.stat .absent, _, rfl, by simp only [Sys.connStep, hs.pc, Sys.stopHook]; rfl,
    (_, _, _), .goes ?_⟩
  rw [Sys.runHook_exited]
  exact hs.exited

/-- `stop` waits until the core is down. -/
theorem stopWait_leads (r : HookReason) (g : Gen) :
    (supervisor env).Leads Winding (At c (.stopWait r g)) (StopReturned c r) := by
  refine (core_stops fun _ => ConnPc.noConfusion).trans (Leads.trans ?_ (stopHook_leads r g))
  refine lock_first (fun _ hs => hs.exited) (fun s s' hst hs => ⟨hst.at hs.toAt, ?_⟩) ?_
  · rw [hst.core]
    exact hs.core
  refine conn_leads c fun s hr hsl => ⟨hsl.1.exited, by rw [hsl.1.pc]; rfl, ?_⟩
  obtain ⟨hs, hlock⟩ := hsl
  refine ⟨.done, s.setPc c (.stopHook r g), rfl, ?_, .goes hs.exited⟩
  simp only [Sys.connStep, hs.pc, Sys.stopWake, Sys.lockSt, hlock, hs.core, Option.isNone_none,
    if_true]

theorem stopLock_leads (r : HookReason) :
    (supervisor env).Leads Winding (At c (.stopLock r)) (StopReturned c r) := by
  have hwait : (supervisor env).Leads Winding (At c (.stopLock r))
      fun s => StopReturned c r s ∨ ∃ g, At c (.stopWait r g) s := by
    refine at_lock_leads rfl fun s hr hs hlock => ?_
    refine ⟨.done, _, rfl, by simp only [Sys.connStep, hs.pc, Sys.stopLock, Sys.lockSt, hlock,
      Option.isNone_none, if_true]; rfl, ?_⟩
    split
    · exact .inl ⟨(_, _, _), .goes hs.exited⟩
    · exact .inr ⟨_, .goes hs.exited⟩
  refine hwait.trans ((Leads.of_imp fun _ _ hs => hs).or ?_)
  exact Leads.bind (F := fun g s => At c (.stopWait r g) s) (Leads.of_imp fun _ _ hs => hs)
    (stopWait_leads r)

/-- `stop` on behalf of a command goes on to its reply. -/
theorem returned_leads {r : HookReason} (hr : r ≠ .ownerDrop) :
    (supervisor env).Leads Winding (StopReturned c r) (At c .loop) := by
  rintro s hs ⟨p, hp⟩
  cases r with
  | ownerDrop => exact absurd rfl hr
  | requested | coreExited | janitor => exact reply_leads _ s hs hp

/-- Between two reads of the command loop. -/
def ConnPc.commanding : ConnPc → Bool
  | .reply _ | .upHook _ | .spawnMonitor _ | .statusSnap | .startLock => true
  | .stopLock r | .stopWait r _ | .stopHook r _ => r != .ownerDrop
  | _ => false

/-- **A command comes to its reply, and the thread back to its loop.** -/
theorem command_leads (hpc : pc.commanding = true) :
    (supervisor env).Leads Winding (At c pc) (At c .loop) := by
  have hdrop : ∀ {r : HookReason}, (r != .ownerDrop) = true → r ≠ .ownerDrop := bne_iff_ne.mp
  cases pc with
  | reply l => exact reply_leads l
  | upHook g => exact upHook_leads g
  | spawnMonitor g => exact spawnMonitor_leads g
  | statusSnap => exact statusSnap_leads
  | startLock => exact startLock_leads
  | stopLock r => exact (stopLock_leads r).trans (returned_leads (hdrop hpc))
  | stopWait r g => exact (stopWait_leads r g).trans (returned_leads (hdrop hpc))
  | stopHook r g => exact (stopHook_leads r g).trans (returned_leads (hdrop hpc))
  | _ => cases hpc

/-! ## From the lease to the loop -/

theorem helloWrite_leads (l : Line) :
    (supervisor env).Leads Winding (At c (.helloWrite l)) (At c .loop) := by
  refine at_leads rfl fun s hr hs => ?_
  exact ⟨.done, (s.write c l).setPc c .loop, rfl, by simp only [Sys.connStep, hs.pc], .goes hs.exited⟩

theorem helloSnap_leads :
    (supervisor env).Leads Winding (At c .helloSnap) (At c .loop) := by
  refine Leads.bind (F := fun l s => At c (.helloWrite l) s)
    (at_lock_leads rfl fun s hr hs hlock => ?_) helloWrite_leads
  refine ⟨.done, _, rfl, ?_, ⟨.hello PROTO_VERSION env.version s.coreSnapshot.1
    s.coreSnapshot.2.2, s.report⟩, .goes hs.exited⟩
  simp only [Sys.connStep, hs.pc, Sys.helloSnapStep, Sys.lockSt, hlock, Option.isNone_none, if_true]

theorem kickShutdown_leads (old : ConnId) :
    (supervisor env).Leads Winding (At c (.kickShutdown old)) (At c .loop) := by
  refine Leads.trans (at_leads rfl fun s hr hs => ?_) helloSnap_leads
  refine ⟨.keep 0, _, rfl, ?_, At.goes (t := s.modConn old fun k =>
    { k with closed := true, sock := k.sock.take 0 }) hs.exited⟩
  simp only [Sys.connStep, hs.pc, Sys.kickShutdownStep]

theorem kickWrite_leads (old : ConnId) :
    (supervisor env).Leads Winding (At c (.kickWrite old)) (At c .loop) := by
  refine Leads.trans (at_leads rfl fun s hr hs => ?_) (kickShutdown_leads old)
  refine ⟨.done, _, rfl, ?_, At.goes (t := s.write old ⟨.kicked, none⟩) hs.exited⟩
  simp only [Sys.connStep, hs.pc, Sys.kickWriteStep]

/-! ## What the peer has left behind -/

/-- Received bytes that no command has been read from. -/
def Conn.unread (k : Conn) : Nat := k.buf.length + k.sock.length

/-- The peer of connection `c` has hung up, and `n` bytes at most are still to be read. -/
def Spent (c : ConnId) (n : Nat) (s : Sys) : Prop :=
  (s.conns c).closed = true ∧ (s.conns c).unread ≤ n

/-- What a read leaves in the buffer was there before it. -/
theorem readLineLimited_length {max : Nat} {bytes rest : List UInt8} {eof : Bool} {rl : ReadLine}
    (h : readLineLimited max bytes eof = some (rl, rest)) : rest.length ≤ bytes.length := by
  unfold readLineLimited at h
  rw [splitLine_eq] at h
  split at h
  · next f r hsplit =>
    obtain ⟨-, htake⟩ := Framing.isFrame_of_splitAfter hsplit
    have hlen : (r ++ bytes.drop max).length ≤ bytes.length := by
      have htaken := congrArg List.length htake
      simp only [List.length_append, List.length_take, List.length_drop] at htaken ⊢
      omega
    split at h
    · cases h
      exact hlen
    · cases h
      exact hlen
  · split at h
    · cases h
      exact Nat.le_refl _
    · split at h
      · cases h
        rw [List.length_drop]
        omega
      · cases h

/-- A connection that is not about to be granted the lease brings no input to anybody, and
tells nobody to go. -/
theorem ConnMove.spent {c d : ConnId} {ans : Answer} (h : ConnMove env s c ans s')
    (hl : (s.conns c).pc.isLease = false) :
    ((s.conns d).closed = true → (s'.conns d).closed = true) ∧
      (s'.conns d).unread ≤ (s.conns d).unread ∧ (s'.conns d).kicked = (s.conns d).kicked := by
  have hread : ∀ {rl : ReadLine} {rest : List UInt8}, s.readLine c = some (rl, rest) →
      rest.length ≤ (s.conns c).buf.length := fun hline => readLineLimited_length hline
  by_cases hd : d = c
  · subst hd
    cases h with
    | takeover _ hpc | accept _ hpc =>
      rw [hpc] at hl
      cases hl
    | sweep hpc hsw | swept hpc hsw =>
      obtain ⟨hooks, n, calls, rfl⟩ := sweepStep_eq hsw
      simp [Conn.unread]
    | @refill n hpc hline hn =>
      refine ⟨by simp, ?_, by simp⟩
      simp only [Sys.modConn, Function.update_self, Conn.unread, List.length_append,
        List.length_take, List.length_drop]
      omega
    | helloDrop hpc hline | helloRefuse hpc hline | helloAccept hpc hline | loopEnd hpc hline
    | loopBlank hpc hline | loopError hpc hline | loopStart hpc hline | loopStatus hpc hline
    | loopStop hpc hline =>
      have hle := hread hline
      simpa [Conn.unread] using hle
    | @kickWrite old hpc =>
      by_cases ho : d = old
      · subst ho
        simp [Conn.unread]
      · simp [Conn.unread, ho]
    | @kickShutdown old n hpc =>
      by_cases ho : d = old
      · subst ho
        simp [Conn.unread, Nat.min_le_right]
      · simp [Conn.unread, ho]
    | _ => simp [Conn.unread]
  · cases h with
    | takeover _ hpc | accept _ hpc =>
      rw [hpc] at hl
      cases hl
    | sweep hpc hsw | swept hpc hsw =>
      obtain ⟨hooks, n, calls, rfl⟩ := sweepStep_eq hsw
      simp [Conn.unread, hd]
    | @kickWrite old hpc =>
      by_cases ho : d = old
      · subst ho
        simp [Conn.unread, hd]
      · simp [Conn.unread, hd, ho]
    | @kickShutdown old n hpc =>
      by_cases ho : d = old
      · subst ho
        simp [Conn.unread, hd, Nat.min_le_right]
      · simp [Conn.unread, hd, ho]
    | _ => simp [Conn.unread, hd]

/-- No step brings input, or tells anybody to go. -/
theorem Winding.spent {a : Action} (hp : Winding s a) (h : Move env s a s') (d : ConnId) :
    ((s.conns d).closed = true → (s'.conns d).closed = true) ∧
      (s'.conns d).unread ≤ (s.conns d).unread ∧ (s'.conns d).kicked = (s.conns d).kicked := by
  cases h with
  | conn h => exact h.spent hp.2
  | monitor h =>
    obtain ⟨out, he⟩ := h.conns_eq d
    rw [he]
    exact ⟨id, Nat.le_refl _, rfl⟩
  | other h =>
    cases h with
    | main _ hsw | serve _ hsw =>
      obtain ⟨hooks, n, calls, rfl⟩ := sweepStep_eq hsw
      exact ⟨id, Nat.le_refl _, rfl⟩
    | accept | arrive => exact hp.elim
    | @hangup c =>
      by_cases hd : d = c
      · subst hd
        simp [Conn.unread]
      · simp [Conn.unread, hd]
    | _ => exact ⟨id, Nat.le_refl _, rfl⟩

theorem spent_stable (c : ConnId) (n : Nat) : (supervisor env).Stable Winding (Spent c n) := by
  intro s a s' _ hs hp hst
  obtain ⟨hclosed, hle, -⟩ := hp.spent (step_move hst).2 c
  exact ⟨hclosed hs.1, Nat.le_trans hle hs.2⟩

theorem unkicked_stable (c : ConnId) :
    (supervisor env).Stable Winding fun s => (s.conns c).kicked = false := by
  intro s a s' _ hs hp hst
  obtain ⟨-, -, hk⟩ := hp.spent (step_move hst).2 c
  exact hk.trans hs

/-! ## The command loop -/

/-- What the loop does with what it has read: it ends, reads on, or carries a command out. -/
theorem loopLine_cases (env : Env) (s : Sys) (c : ConnId) (rl : ReadLine) :
    s.loopLine env c rl = s.setPc c .ended ∨ ∃ l, rl = .line l ∧
      (s.loopLine env c rl = s ∨
        ∃ pc, ConnPc.commanding pc = true ∧ s.loopLine env c rl = s.setPc c pc) := by
  cases rl with
  | eof | err msg => exact .inl rfl
  | line l =>
    refine .inr ⟨l, rfl, ?_⟩
    unfold Sys.loopLine
    dsimp only
    split
    · exact .inl rfl
    · right
      split
      all_goals exact ⟨_, rfl, rfl⟩

/-- At the end of the stream a read does not block. -/
theorem readLineLimited_eof (max : Nat) (bytes : List UInt8) :
    ∃ rl rest, readLineLimited max bytes true = some (rl, rest) := by
  unfold readLineLimited
  split
  · split
    · exact ⟨_, _, rfl⟩
    · exact ⟨_, _, rfl⟩
  · simp only [Bool.true_or, Bool.and_true, Bool.or_true, if_true]
    split
    · exact ⟨_, _, rfl⟩
    · exact ⟨_, _, rfl⟩

/-- At the top of the loop of a connection that is hung up, with `n` bytes to read. -/
structure Draining (c : ConnId) (n : Nat) (s : Sys) : Prop extends At c .loop s where
  closed : (s.conns c).closed = true
  unread : (s.conns c).unread = n

/-- A read that blocks gets the bytes that have arrived. -/
theorem refill_leads (n : Nat) : (supervisor env).Leads Winding (Draining c n)
    fun s => Draining c n s ∧ ∃ p, s.readLine c = some p := by
  intro s hr hs
  cases hline : s.readLine c with
  | some p => exact ⟨s, .refl, hs, p, hline⟩
  | none =>
    have hsock : (s.conns c).sock ≠ [] := by
      intro hnil
      obtain ⟨rl, rest, hread⟩ := readLineLimited_eof MAX_LINE (s.conns c).buf
      unfold Sys.readLine at hline
      rw [hs.closed, hnil, List.isEmpty_nil, Bool.true_and, hread] at hline
      cases hline
    have hpos : 0 < (s.conns c).sock.length := List.length_pos_iff.mpr hsock
    have hlead : (supervisor env).Leads Winding (fun t => t = s)
        fun t => Draining c n t ∧ ∃ p, t.readLine c = some p := by
      refine conn_leads c fun t _ ht => ?_
      subst ht
      refine ⟨hs.exited, by rw [hs.pc]; rfl, .refill (t.conns c).sock.length, t.modConn c fun k =>
        { k with buf := k.buf ++ k.sock.take (t.conns c).sock.length,
                 sock := k.sock.drop (t.conns c).sock.length }, rfl, ?_, ?_, ?_⟩
      · simp only [Sys.connStep, hs.pc, Sys.loopStep, Sys.refill, hline, hpos, Nat.le_refl,
          and_self, if_true]
      · refine ⟨⟨hs.exited, by simpa using hs.pc⟩, by simpa using hs.closed, ?_⟩
        have hun := hs.unread
        unfold Conn.unread at hun
        simpa [Conn.unread] using hun
      · obtain ⟨rl, rest, hread⟩ := readLineLimited_eof MAX_LINE ((t.conns c).buf ++ (t.conns c).sock)
        refine ⟨(rl, rest), ?_⟩
        simp [Sys.readLine, hs.closed, hread]
    exact hlead s hr rfl

/-- A line is read, and carried out. -/
theorem round_leads (n : Nat) : (supervisor env).Leads Winding (Draining c n)
    fun s => At c .ended s ∨ ∃ k < n, Draining c k s := by
  have hread : (supervisor env).Leads Winding
      (fun s => Draining c n s ∧ ∃ p, s.readLine c = some p)
      fun s => At c .ended s ∨ ∃ pc, (pc = .loop ∨ pc.commanding = true) ∧ 0 < n ∧
        At c pc s ∧ Spent c (n - 1) s := by
    refine conn_leads c fun s _ hsl => ⟨hsl.1.exited, by rw [hsl.1.pc]; rfl, ?_⟩
    obtain ⟨hs, ⟨rl, rest⟩, hline⟩ := hsl
    refine ⟨.done, (s.setBuf c rest).loopLine env c rl, rfl, ?_, ?_⟩
    · simp only [Sys.connStep, hs.pc, Sys.loopStep, hline, Option.map_some]
    rcases loopLine_cases env (s.setBuf c rest) c rl with he | ⟨l, rfl, he⟩
    · rw [he]
      exact .inl (.goes hs.exited)
    · right
      obtain ⟨f, hf, -, hbuf⟩ := readLineLimited_line hline
      have hshort : rest.length < (s.conns c).buf.length := by
        have hpos := List.length_pos_iff.mpr hf.ne_nil
        rw [hbuf, List.length_append]
        omega
      have hun : (s.conns c).buf.length + (s.conns c).sock.length = n := hs.unread
      have hn : 0 < n := by omega
      rcases he with he | ⟨pc, hpc, he⟩
      · rw [he]
        refine ⟨.loop, .inl rfl, hn, ⟨hs.exited, by simpa using hs.pc⟩, by simpa using hs.closed, ?_⟩
        simp only [Sys.setBuf, Sys.modConn, Function.update_self, Conn.unread]
        omega
      · rw [he]
        refine ⟨pc, .inr hpc, hn, .goes hs.exited, by simpa using hs.closed, ?_⟩
        simp only [Sys.setBuf, Sys.setPc, Sys.modConn, Function.update_self, Conn.unread]
        omega
  have hback : (supervisor env).Leads Winding
      (fun s => ∃ pc, (pc = .loop ∨ pc.commanding = true) ∧ 0 < n ∧ At c pc s ∧ Spent c (n - 1) s)
      fun s => 0 < n ∧ At c .loop s ∧ Spent c (n - 1) s := by
    rintro s hr ⟨pc, hpc | hpc, hn, hs, hsp⟩
    · exact ⟨s, .refl, hn, hpc ▸ hs, hsp⟩
    · obtain ⟨s', hpath, hs', hsp'⟩ :=
        (command_leads hpc).keep (spent_stable c (n - 1)) s hr ⟨hs, hsp⟩
      exact ⟨s', hpath, hn, hs', hsp'⟩
  refine (refill_leads n).trans (hread.trans ((Leads.of_imp fun _ _ hs => .inl hs).or ?_))
  refine hback.imp fun s _ hsn => .inr ?_
  obtain ⟨hn, hs, hclosed, hle⟩ := hsn
  refine ⟨(s.conns c).unread, ?_, hs, hclosed, rfl⟩
  omega

/-- The peer hangs up. -/
theorem hangup_leads (pc : ConnPc) : (supervisor env).Leads Winding (At c pc)
    fun s => At c pc s ∧ (s.conns c).closed = true := by
  refine Leads.of_step fun s _ hs => ?_
  refine ⟨.hangup c, s.modConn c fun k => { k with closed := true }, trivial, ?_,
    ⟨hs.exited, by simpa using hs.pc⟩, by simp⟩
  show step env s (.hangup c) = _
  simp only [step, hs.exited, Option.isSome_none, Bool.false_eq_true, if_false]

/-- **The command loop ends**: what the peer has left behind is read and carried out. -/
theorem loop_leads : (supervisor env).Leads Winding (At c .loop) (At c .ended) := by
  refine (hangup_leads .loop).trans ?_
  refine Leads.descend (fun s => (s.conns c).unread) fun n => ?_
  intro s hr hsn
  obtain ⟨⟨hs, hclosed⟩, hn⟩ := hsn
  obtain ⟨s', hpath, hs'⟩ := round_leads n s hr ⟨hs, hclosed, hn⟩
  refine ⟨s', hpath, ?_⟩
  rcases hs' with hend | ⟨k, hk, hd⟩
  · exact .inl hend
  · right
    refine ⟨⟨hd.toAt, hd.closed⟩, ?_⟩
    rw [hd.unread]
    exact hk

/-! ## The teardown -/

/-- The process has exited. -/
def Exited (s : Sys) : Prop := s.exited ≠ none

theorem exit_leads : (supervisor env).Leads Winding (At c .exit) Exited := by
  refine at_leads rfl fun s hr hs => ?_
  exact ⟨.done, s.exit (.conn c), rfl, by simp only [Sys.connStep, hs.pc], by simp [Exited]⟩

/-- A hook that is launched runs, unless its deadline cannot be represented. -/
theorem launched_cases (now timeout : Nat) : Sys.launched now timeout = .finished .panicked ∨
    ∃ deadline, Sys.launched now timeout = .running deadline := by
  unfold Sys.launched
  cases instantAdd now timeout with
  | none => exact .inl rfl
  | some deadline => exact .inr ⟨deadline, rfl⟩

/-- The hook is launched, and its script exits. -/
theorem hook_leads (h : HookId) (pc : ConnPc) : (supervisor env).Leads Winding (At c pc)
    fun s => At c pc s ∧ (s.hooks h).pc.isFinished = true := by
  have hstep : ∀ {s : Sys} (pc' : HookPc), At c pc s → s.hookStep env h .done = some (s.setHook h pc') →
      ∃ a s', Winding s a ∧ (supervisor env).step s a s' ∧ At c pc s' ∧ (s'.hooks h).pc = pc' := by
    intro s pc' hs hst
    refine ⟨.hook h .done, s.setHook h pc', rfl, ?_, ⟨hs.exited, hs.pc⟩, by simp⟩
    show step env s (.hook h .done) = _
    simp only [step, hs.exited, Option.isSome_none, Bool.false_eq_true, if_false]
    exact hst
  have hrun : (supervisor env).Leads Winding
      (fun s => At c pc s ∧ ∃ d, (s.hooks h).pc = .running d)
      fun s => At c pc s ∧ (s.hooks h).pc.isFinished = true := by
    refine Leads.of_step fun s hr hsd => ?_
    obtain ⟨hs, d, hd⟩ := hsd
    obtain ⟨a, s', hp, hst, hs', hpc⟩ := hstep (.finished .exited) hs
      (by simp only [Sys.hookStep, hd])
    refine ⟨a, s', hp, hst, hs', ?_⟩
    rw [hpc]
    rfl
  intro s hr hs
  cases hpc : (s.hooks h).pc with
  | finished how => exact ⟨s, .refl, hs, by rw [hpc]; rfl⟩
  | running d => exact hrun s hr ⟨hs, d, hpc⟩
  | created =>
    obtain ⟨a, s', hp, hst, hs', hpc'⟩ := hstep (Sys.launched s.now env.config.hookTimeout) hs
      (by simp only [Sys.hookStep, hpc])
    have hpath : (supervisor env).PathBy Winding s s' := .tail .refl hp hst
    rcases launched_cases s.now env.config.hookTimeout with he | ⟨deadline, he⟩
    · exact ⟨s', hpath, hs', by rw [hpc', he]; rfl⟩
    · obtain ⟨s₂, hpath₂, hs₂⟩ := hrun s' (hpath.reachable hr) ⟨hs', deadline, hpc'.trans he⟩
      exact ⟨s₂, hpath.trans hpath₂, hs₂⟩

theorem join_leads (hook : Option HookId) :
    (supervisor env).Leads Winding (At c (.join hook)) Exited := by
  refine Leads.trans ?_ (exit_leads (c := c))
  cases hook with
  | none =>
    refine at_leads rfl fun s hr hs => ?_
    exact ⟨.done, s.setPc c .exit, rfl, by simp only [Sys.connStep, hs.pc, Sys.joinStep],
      .goes hs.exited⟩
  | some h =>
    refine (hook_leads h _).trans (conn_leads c fun s hr hsd => ⟨hsd.1.exited, ?_, ?_⟩)
    · rw [hsd.1.pc]
      rfl
    · obtain ⟨hs, hdone⟩ := hsd
      refine ⟨.done, s.setPc c .exit, rfl, ?_, .goes hs.exited⟩
      simp only [Sys.connStep, hs.pc, Sys.joinStep, hdone, if_true]

theorem sweep_leads (sw : Sweep) (hook : Option HookId) :
    (supervisor env).Leads Winding (At c (.sweep sw hook)) Exited := by
  refine Leads.trans (B := At c (.join hook)) ?_ (join_leads hook)
  have hlead : (supervisor env).Leads Winding (fun s => ∃ sw, At c (.sweep sw hook) s)
      (At c (.join hook)) := by
    refine Leads.descend (fun s => s.connLeft env (s.conns c).pc) fun n => ?_
    refine conn_leads c fun s hr hsn => ?_
    obtain ⟨⟨sw, hs⟩, hn⟩ := hsn
    refine ⟨hs.exited, by rw [hs.pc]; rfl, ?_⟩
    rw [hs.pc] at hn
    have hn : s.left env sw = n := hn
    obtain ⟨ans, s₁, next, hst, hcalm, hless⟩ := sweep_gets_on env s sw
    have hex : s₁.exited = none := by
      obtain ⟨hooks, m, calls, rfl⟩ := sweepStep_eq hst
      exact hs.exited
    cases next with
    | none =>
      refine ⟨ans, s₁.setPc c (.join hook), hcalm, ?_, .inl (.goes hex)⟩
      simp only [Sys.connStep, hs.pc, Sys.connSweep, hst, Option.map_some]
    | some sw' =>
      refine ⟨ans, s₁.setPc c (.sweep sw' hook), hcalm, ?_, .inr ⟨⟨sw', .goes hex⟩, ?_⟩⟩
      · simp only [Sys.connStep, hs.pc, Sys.connSweep, hst, Option.map_some]
      · have hpc' : ((s₁.setPc c (.sweep sw' hook)).conns c).pc = .sweep sw' hook := by simp
        rw [hpc', ← hn]
        exact hless sw' rfl
  intro s hr hs
  exact hlead s hr ⟨sw, hs⟩

/-- **A teardown comes to its end**, and the process exits. -/
theorem teardown_leads (hpc : pc.gaveUp = true) :
    (supervisor env).Leads Winding (At c pc) Exited := by
  have hreturned : (supervisor env).Leads Winding (StopReturned c .ownerDrop) Exited := by
    rintro s hr ⟨p, hp⟩
    exact sweep_leads .ps p.2.1 s hr hp
  cases pc with
  | stopLock r =>
    rw [show r = .ownerDrop from beq_iff_eq.mp hpc]
    exact (stopLock_leads .ownerDrop).trans hreturned
  | stopWait r g =>
    rw [show r = .ownerDrop from beq_iff_eq.mp hpc]
    exact (stopWait_leads .ownerDrop g).trans hreturned
  | stopHook r g =>
    rw [show r = .ownerDrop from beq_iff_eq.mp hpc]
    exact (stopHook_leads .ownerDrop g).trans hreturned
  | sweep sw hook => exact sweep_leads sw hook
  | join hook => exact join_leads hook
  | exit => exact exit_leads
  | _ => cases hpc

theorem giveUp_leads : (supervisor env).Leads Winding (At c .giveUp) Exited := by
  refine Leads.trans (B := At c (.stopLock .ownerDrop)) ?_ (teardown_leads rfl)
  refine at_lock_leads rfl fun s hr hs hlock => ?_
  refine ⟨.done, _, rfl, by simp only [Sys.connStep, hs.pc, Sys.giveUpStep, Sys.lockSt, hlock,
    Option.isNone_none, if_true]; rfl, ?_⟩
  split
  · exact At.goes (t := s.clearOwner) hs.exited
  · exact .goes hs.exited

/-- A connection that was not displaced tears down. -/
theorem ended_leads : (supervisor env).Leads Winding
    (fun s => At c .ended s ∧ (s.conns c).kicked = false) Exited := by
  refine Leads.trans (conn_leads c fun s hr hsk => ⟨hsk.1.exited, by rw [hsk.1.pc]; rfl, ?_⟩)
    (giveUp_leads (c := c))
  obtain ⟨hs, hk⟩ := hsk
  refine ⟨.done, s.setPc c .giveUp, rfl, ?_, .goes hs.exited⟩
  simp only [Sys.connStep, hs.pc, Sys.endedStep, hk, Bool.false_eq_true, if_false]

/-- **The lease holder can be led to exit**, from wherever its thread is. -/
theorem holder_leads (hpc : pc.stage.holds) : (supervisor env).Leads Winding
    (fun s => At c pc s ∧ (s.conns c).kicked = false) Exited := by
  have hloop : (supervisor env).Leads Winding
      (fun s => At c .loop s ∧ (s.conns c).kicked = false) Exited :=
    (loop_leads.keep (unkicked_stable c)).trans ended_leads
  have hback : ∀ {pc : ConnPc}, (supervisor env).Leads Winding (At c pc) (At c .loop) →
      (supervisor env).Leads Winding (fun s => At c pc s ∧ (s.conns c).kicked = false) Exited :=
    fun h => (h.keep (unkicked_stable c)).trans hloop
  have hcmd : ∀ {pc : ConnPc}, pc.commanding = true →
      (supervisor env).Leads Winding (fun s => At c pc s ∧ (s.conns c).kicked = false) Exited :=
    fun h => hback (command_leads h)
  cases pc with
  | loop => exact hloop
  | kickWrite old => exact hback (kickWrite_leads old)
  | kickShutdown old => exact hback (kickShutdown_leads old)
  | helloSnap => exact hback helloSnap_leads
  | helloWrite l => exact hback (helloWrite_leads l)
  | reply l => exact hcmd rfl
  | startLock => exact hcmd rfl
  | spawnMonitor g => exact hcmd rfl
  | upHook g => exact hcmd rfl
  | statusSnap => exact hcmd rfl
  | ended => exact ended_leads
  | giveUp => exact fun s hr hs => giveUp_leads s hr hs.1
  | stopLock r | stopWait r g | stopHook r g =>
    cases r with
    | ownerDrop => exact fun s hr hs => teardown_leads rfl s hr hs.1
    | requested | coreExited | janitor => exact hcmd rfl
  | auth | readHello | refuse ev | lease t | sweep sw hook | join hook | exit | closed =>
    exact hpc.elim

end EasyTierMac.Supervisor
