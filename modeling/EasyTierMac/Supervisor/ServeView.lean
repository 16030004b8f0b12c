import EasyTierMac.Supervisor.Streams
import EasyTierMac.Supervisor.Received

/-!
# One connection, as its peer sees it

A peer sees how far its connection is (`Serving`), the bytes that are still to be read,
and the lines that are written. `Served` lists what a step of the supervisor can do to
these: between two lines of input the command loop writes one reply, and whatever else is
written to a connection once its hello has been answered is a push.
-/

namespace EasyTierMac.Supervisor

open Function (update update_apply)

/-- How far a connection is. -/
inductive Serving
  /-- Its first line has not been read. -/
  | screening
  /-- Its first line has been read and not been answered. -/
  | greeting
  /-- At the top of the command loop. -/
  | loop
  /-- The command loop is processing a line. -/
  | handling
  /-- No line is read from it any more. -/
  | over
  deriving DecidableEq, Repr

def ConnPc.serving : ConnPc → Serving
  | .auth | .readHello => .screening
  | .refuse _ | .lease _ | .kickWrite _ | .kickShutdown _ | .helloSnap | .helloWrite _ => .greeting
  | .loop => .loop
  | .reply _ | .startLock | .spawnMonitor _ | .upHook _ | .statusSnap => .handling
  | .stopLock r | .stopWait r _ | .stopHook r _ => if r = .ownerDrop then .over else .handling
  | .ended | .giveUp | .sweep _ _ | .join _ | .exit | .closed => .over

/-- A push: `core_exited` or `kicked`. -/
def Event.isPush : Event → Bool
  | .coreExited .. | .kicked => true
  | _ => false

/-- What a step does to connection `d`, which becomes `k'`. -/
inductive Served (s : Sys) (d : ConnId) (a : Action) (k' : Conn) : Prop
  /-- Nothing that the peer can see. -/
  | quiet (serving : k'.pc.serving = (s.conns d).pc.serving) (out : k'.out = (s.conns d).out)
      (input : k'.buf ++ k'.sock = (s.conns d).buf ++ (s.conns d).sock)
      (closed : k'.closed = (s.conns d).closed)
  | arrive {bytes : List UInt8} (act : a = .arrive d bytes) (opened : (s.conns d).closed = false)
      (conn : k' = { s.conns d with sock := (s.conns d).sock ++ bytes })
  /-- The stream ends, and bytes that have not been read may be lost. -/
  | close (sock : List UInt8) (cut : sock <+: (s.conns d).sock)
      (serving : k'.pc.serving = (s.conns d).pc.serving) (out : k'.out = (s.conns d).out)
      (buf : k'.buf = (s.conns d).buf) (sock' : k'.sock = sock) (closed : k'.closed = true)
  | push {l : Line} (push : l.ev.isPush = true)
      (own : ∀ ans, a = .conn d ans → (s.conns d).pc.serving = .greeting)
      (serving : k'.pc.serving = (s.conns d).pc.serving) (out : k'.out = (s.conns d).out ++ [l])
      (buf : k'.buf = (s.conns d).buf) (sock : k'.sock = (s.conns d).sock)
      (closed : k'.closed = (s.conns d).closed)
  /-- The first line is read. -/
  | first {rl : ReadLine} {rest : List UInt8} (was : (s.conns d).pc.serving = .screening)
      (line : s.readLine d = some (rl, rest)) (serving : k'.pc.serving = .greeting)
      (out : k'.out = (s.conns d).out) (buf : k'.buf = rest) (sock : k'.sock = (s.conns d).sock)
      (closed : k'.closed = (s.conns d).closed)
  /-- The first line is answered. -/
  | greet {l : Line} {ans : Answer} (act : a = .conn d ans)
      (was : (s.conns d).pc.serving = .greeting)
      (serving : k'.pc.serving = .loop ∨ k'.pc.serving = .over)
      (out : k'.out = (s.conns d).out ++ [l])
      (buf : k'.buf = (s.conns d).buf) (sock : k'.sock = (s.conns d).sock)
      (closed : k'.closed = (s.conns d).closed)
  /-- The command loop reads a line. -/
  | take {l : Rust.Text} {rest : List UInt8} (was : (s.conns d).pc.serving = .loop)
      (line : s.readLine d = some (.line l, rest)) (serving : k'.pc.serving = .handling)
      (out : k'.out = (s.conns d).out) (buf : k'.buf = rest) (sock : k'.sock = (s.conns d).sock)
      (closed : k'.closed = (s.conns d).closed)
  | blank {l : Rust.Text} {rest : List UInt8} (was : (s.conns d).pc.serving = .loop)
      (line : s.readLine d = some (.line l, rest)) (empty : (Rust.trim l).isEmpty = true)
      (serving : k'.pc.serving = .loop) (out : k'.out = (s.conns d).out) (buf : k'.buf = rest)
      (sock : k'.sock = (s.conns d).sock) (closed : k'.closed = (s.conns d).closed)
  /-- The command loop answers the line. -/
  | reply {l : Line} {ans : Answer} (act : a = .conn d ans) (was : (s.conns d).pc = .reply l)
      (serving : k'.pc.serving = .loop) (out : k'.out = (s.conns d).out ++ [l])
      (buf : k'.buf = (s.conns d).buf) (sock : k'.sock = (s.conns d).sock)
      (closed : k'.closed = (s.conns d).closed)
  | leave (was : (s.conns d).pc.serving = .screening ∨ (s.conns d).pc.serving = .loop)
      (serving : k'.pc.serving = .over) (out : k'.out = (s.conns d).out)

variable {env : Env} {s s' : Sys}

/-- After `stop` has returned, its caller sweeps or replies. -/
theorem serving_afterStop (r : HookReason) (wasRunning : Bool) (hook : Option HookId)
    (about : Option Report) : (Sys.afterStopPc r wasRunning hook about).serving =
      if r = .ownerDrop then .over else .handling := by
  cases r <;> rfl

/-- A step of the connection's own thread. -/
theorem ConnMove.served_own {c : ConnId} {ans : Answer} (h : ConnMove env s c ans s') :
    Served s c (.conn c ans) (s'.conns c) := by
  cases h with
  | reject hpc | helloFail hpc =>
    exact .leave (.inl (by rw [hpc]; rfl)) (by simp [ConnPc.serving]) (by simp)
  | helloDrop hpc hline =>
    exact .leave (.inl (by rw [hpc]; rfl)) (by simp [ConnPc.serving]) (by simp)
  | helloRefuse hpc hline | helloAccept hpc hline =>
    exact .first (by rw [hpc]; rfl) hline (by simp [ConnPc.serving]) (by simp) (by simp) (by simp)
      (by simp)
  | refused hpc =>
    exact .greet rfl (by rw [hpc]; rfl) (.inr (by simp [ConnPc.serving])) (by simp; rfl) (by simp)
      (by simp) (by simp)
  | helloWrite hpc =>
    exact .greet rfl (by rw [hpc]; rfl) (.inl (by simp [ConnPc.serving])) (by simp; rfl) (by simp)
      (by simp) (by simp)
  | @kickWrite old hpc =>
    -- a connection can be its own predecessor here: nothing says yet that it is not
    by_cases ho : c = old
    · subst ho
      exact .push (l := ⟨.kicked, none⟩) rfl (fun _ _ => by rw [hpc]; rfl)
        (by simp [hpc, ConnPc.serving]) (by simp) (by simp) (by simp) (by simp)
    · exact .quiet (by simp [hpc, ConnPc.serving]) (by simp [ho]) (by simp [ho]) (by simp [ho])
  | @kickShutdown old n hpc =>
    by_cases ho : c = old
    · subst ho
      exact .close _ (List.take_prefix n _) (by simp [hpc, ConnPc.serving]) (by simp) (by simp)
        (by simp) (by simp)
    · exact .quiet (by simp [hpc, ConnPc.serving]) (by simp [ho]) (by simp [ho]) (by simp [ho])
  | @takeover _ old _ hpc =>
    by_cases ho : c = old.conn
    · exact .quiet (by simp [hpc, ConnPc.serving]) (by simp [ho]) (by simp [ho]) (by simp [ho])
    · exact .quiet (by simp [hpc, ConnPc.serving]) (by simp [ho]) (by simp [ho]) (by simp [ho])
  | loopFail hpc => exact .leave (.inr (by rw [hpc]; rfl)) (by simp [ConnPc.serving]) (by simp)
  | loopEnd hpc hline =>
    exact .leave (.inr (by rw [hpc]; rfl)) (by simp [ConnPc.serving]) (by simp)
  | loopBlank hpc hline hblank =>
    exact .blank (by rw [hpc]; rfl) hline hblank (by simp [hpc, ConnPc.serving]) (by simp) (by simp)
      (by simp) (by simp)
  | loopError hpc hline | loopStart hpc hline | loopStatus hpc hline | loopStop hpc hline =>
    exact .take (by rw [hpc]; rfl) hline (by simp [ConnPc.serving]) (by simp) (by simp) (by simp)
      (by simp)
  | reply hpc =>
    exact .reply rfl hpc (by simp [ConnPc.serving]) (by simp) (by simp) (by simp) (by simp)
  | sweep hpc hsw | swept hpc hsw =>
    obtain ⟨hooks, n, calls, rfl⟩ := sweepStep_eq hsw
    exact .quiet (by simp [hpc, ConnPc.serving]) (by simp) (by simp) (by simp)
  | @stopIdle _ r _ hpc =>
    refine .quiet ?_ (by simp) (by simp) (by simp)
    have hto : ((s.afterStop c r false none s.report).conns c).pc =
        Sys.afterStopPc r false none s.report := by simp
    rw [hto, serving_afterStop, hpc]
    rfl
  | @stopHook st r g hpc =>
    refine .quiet ?_ (by simp) (by simp) (by simp)
    have hto (joiner : Option ConnId) (hook : Option HookId) :
        (((s.runHook env ⟨.down, some r, some g⟩ joiner st).afterStop c r true hook
          (some (.stopped g))).conns c).pc = Sys.afterStopPc r true hook (some (.stopped g)) := by simp
    rw [hto, serving_afterStop, hpc]
    rfl
  | refill hpc hline hn => exact .quiet (by simp) (by simp) (by simp) (by simp)
  | gate hpc | busy _ hpc | accept _ hpc | kickSkip hpc | helloSnap _ hpc | startRunning _ hpc
  | startFailed _ hpc | spawn _ hpc | spawnMonitor hpc | upHook hpc | statusSnap _ hpc
  | stopMark _ hpc | stopSeen _ hpc | stopAgain _ hpc | endedKicked hpc | endedOwner hpc
  | giveUp _ hpc | giveUpOther _ hpc | join hpc | exit hpc =>
    exact .quiet (by simp [hpc, ConnPc.serving]) (by simp) (by simp) (by simp)

/-- A step of the thread of another connection: it may displace this one. -/
theorem ConnMove.served_other {c d : ConnId} {ans : Answer} (h : ConnMove env s c ans s')
    (hd : d ≠ c) : Served s d (.conn c ans) (s'.conns d) := by
  have hown : ∀ ans', Action.conn c ans = .conn d ans' → (s.conns d).pc.serving = .greeting := by
    intro ans' he
    injection he with he
    exact absurd he.symm hd
  cases h with
  | sweep hpc hsw | swept hpc hsw =>
    obtain ⟨hooks, n, calls, rfl⟩ := sweepStep_eq hsw
    exact .quiet (by simp [hd]) (by simp [hd]) (by simp [hd]) (by simp [hd])
  | @kickWrite old hpc =>
    by_cases ho : d = old
    · subst ho
      exact .push (l := ⟨.kicked, none⟩) rfl hown (by simp [hd]) (by simp [hd]) (by simp [hd])
        (by simp [hd]) (by simp [hd])
    · exact .quiet (by simp [hd, ho]) (by simp [hd, ho]) (by simp [hd, ho]) (by simp [hd, ho])
  | @kickShutdown old n hpc =>
    by_cases ho : d = old
    · subst ho
      exact .close _ (List.take_prefix n _) (by simp [hd]) (by simp [hd]) (by simp [hd])
        (by simp [hd]) (by simp [hd])
    · exact .quiet (by simp [hd, ho]) (by simp [hd, ho]) (by simp [hd, ho]) (by simp [hd, ho])
  | @takeover _ old _ hpc =>
    by_cases ho : d = old.conn
    · subst ho
      exact .quiet (by simp [hd]) (by simp [hd]) (by simp [hd]) (by simp [hd])
    · exact .quiet (by simp [hd, ho]) (by simp [hd, ho]) (by simp [hd, ho]) (by simp [hd, ho])
  | _ => exact .quiet (by simp [hd]) (by simp [hd]) (by simp [hd]) (by simp [hd])

/-- **What a step does to a connection** that has been accepted. -/
theorem Move.served {a : Action} (h : Move env s a s') {d : ConnId} (hd : d < s.nConns) :
    Served s d a (s'.conns d) := by
  cases h with
  | @conn c ans _ h =>
    by_cases hdc : d = c
    · subst hdc
      exact h.served_own
    · exact h.served_other hdc
  | @monitor g ans _ h =>
    rcases h.conns_cases d with he | ⟨l, hw, he⟩
    · rw [he]
      exact .quiet rfl rfl rfl rfl
    · rw [he]
      cases hw with
      | coreExited hpc => exact .push rfl (fun _ he => nomatch he) rfl rfl rfl rfl rfl
  | other h =>
    cases h with
    | main hmain hsw | serve hmain hsw =>
      obtain ⟨hooks, n, calls, rfl⟩ := sweepStep_eq hsw
      exact .quiet rfl rfl rfl rfl
    | accept hmain =>
      have hne : d ≠ s.nConns := Nat.ne_of_lt hd
      exact .quiet (by simp [hne]) (by simp [hne]) (by simp [hne]) (by simp [hne])
    | @arrive c bytes hopen =>
      by_cases hdc : d = c
      · subst hdc
        exact .arrive rfl hopen (by simp)
      · exact .quiet (by simp [hdc]) (by simp [hdc]) (by simp [hdc]) (by simp [hdc])
    | @hangup c =>
      by_cases hdc : d = c
      · subst hdc
        exact .close _ (List.prefix_refl _) (by simp) (by simp) (by simp) (by simp) (by simp)
      · exact .quiet (by simp [hdc]) (by simp [hdc]) (by simp [hdc]) (by simp [hdc])
    | _ => exact .quiet rfl rfl rfl rfl

end EasyTierMac.Supervisor
