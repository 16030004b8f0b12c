import EasyTierMac.Supervisor.LeaseView
import EasyTierMac.Supervisor.Streams

/-!
# The first line is the hello reply

The owner slot with its writer is public as soon as the lease lock is released,
the hello reply is written only after the notification of the displaced owner
and one more critical section. A monitor that looks the owner up in between, or
a connection that takes the lease over in between, writes to a stream that has
not seen its hello yet (`exited_before_hello`). As long as neither meets an owner
that is still `greeting`, the first line on the stream of every connection that
was granted the lease is its hello reply.
-/

namespace EasyTierMac.Supervisor

variable {env : Env} {s s' : Sys}

/-- Granted the lease and not yet past its hello reply. -/
def ConnPc.greeting : ConnPc → Bool
  | .kickWrite _ | .kickShutdown _ | .helloSnap | .helloWrite _ => true
  | _ => false

/-- The step looks up an owner that is still greeting: for a `core_exited` push, or
to displace it. -/
def meetsGreeting (s : Sys) : Action → Bool
  | .monitor g _ =>
    match (s.monitors g).pc, s.owner with
    | .push _, some o => (s.conns o.conn).pc.greeting
    | _, _ => false
  | .conn c _ =>
    match (s.conns c).pc, s.owner with
    | .lease true, some o => (s.conns o.conn).pc.greeting
    | _, _ => false
  | _ => false

/-- Whoever looks the owner up to write to it finds it past its hello reply. -/
def GreetsFirst (s : Sys) (a : Action) : Prop := meetsGreeting s a = false

instance : ∀ s a, Decidable (GreetsFirst s a) := fun _ _ => inferInstanceAs (Decidable (_ = _))

/-! ## The invariant -/

/-- The stream starts with a hello reply. -/
def Conn.helloed (k : Conn) : Prop := ∃ l rest, k.out = l :: rest ∧ l.ev.isHello = true

/-- What the position of a connection's thread says about its stream: nothing was
written before the hello reply, and the hello reply is the first line after. -/
def Conn.shaken (k : Conn) : Prop :=
  match k.pc with
  | .auth | .readHello | .refuse _ | .lease _ => k.granted = false ∧ k.out = []
  | .kickWrite _ | .kickShutdown _ | .helloSnap => k.granted = true ∧ k.out = []
  | .helloWrite l => k.granted = true ∧ k.out = [] ∧ l.ev.isHello = true
  | _ => k.granted = true → k.helloed

/-- Somebody else may write to the stream. -/
def Conn.greeted (k : Conn) : Prop := k.granted = true ∧ k.helloed

structure Handshaken (s : Sys) : Prop where
  shaken : ∀ c, (s.conns c).shaken
  kicks : ∀ c old, (s.conns c).pc = .kickWrite old → (s.conns old).greeted
  pushes : ∀ g info c, (s.monitors g).pc = .pushWrite info c → (s.conns c).greeted

theorem Conn.helloed.append {k k' : Conn} (h : k.helloed) (l : Line)
    (he : k'.out = k.out ++ [l]) : k'.helloed := by
  obtain ⟨l₀, rest, hout, hl⟩ := h
  exact ⟨l₀, rest ++ [l], by rw [he, hout]; rfl, hl⟩

/-- A stream that has its hello reply belongs to a thread past the hello reply. -/
theorem Conn.shaken.of_greeted {k k' : Conn} (hk : k.shaken) (h : k.greeted)
    (hpc : k'.pc = k.pc) (h' : k'.helloed) : k'.shaken := by
  obtain ⟨hg, l, rest, hout, -⟩ := h
  unfold Conn.shaken at hk ⊢
  rw [hpc]
  split at hk <;> simp_all

/-- An owner past its greeting has its hello reply on the stream. -/
theorem Conn.shaken.greeted {k : Conn} (hk : k.shaken) (hg : k.granted = true)
    (hpc : k.pc.greeting = false) : k.greeted := by
  refine ⟨hg, ?_⟩
  unfold Conn.shaken at hk
  split at hk
  · exact absurd hg (by simp [hk.1])
  · exact absurd hg (by simp [hk.1])
  · exact absurd hg (by simp [hk.1])
  · exact absurd hg (by simp [hk.1])
  · next h => simp [h, ConnPc.greeting] at hpc
  · next h => simp [h, ConnPc.greeting] at hpc
  · next h => simp [h, ConnPc.greeting] at hpc
  · next h => simp [h, ConnPc.greeting] at hpc
  · exact hk hg

namespace Handshaken

theorem init : Handshaken {} where
  shaken _ h := by cases h
  kicks _ _ h := by cases h
  pushes _ _ _ h := by cases h

/-- A line that another thread writes goes to a stream that has its hello reply. -/
theorem target (hH : Handshaken s) {d : ConnId} {a : Action} {l : Line} (hw : Writes s d a l)
    (hother : ∀ ans, a ≠ .conn d ans) : (s.conns d).greeted := by
  cases hw with
  | refuse | hello | reply => exact absurd rfl (hother _)
  | kicked hpc => exact hH.kicks _ _ hpc
  | coreExited hpc => exact hH.pushes _ _ _ hpc

/-- A grant stays on record and streams only grow: a stream that has its hello reply
keeps it. -/
theorem greeted_keep (hA : Accepted s) {a : Action} (h : Move env s a s') {d : ConnId}
    (hd : (s.conns d).greeted) : (s'.conns d).greeted := by
  obtain ⟨hg, hhello⟩ := hd
  have hne : d ≠ s.nConns := by
    rintro rfl
    have hun := hA.ungranted s.nConns (Nat.le_refl _)
    rw [hg] at hun
    cases hun
  refine ⟨h.granted_mono hne hg, ?_⟩
  rcases h.out_cases d with he | ⟨l, -, he⟩ | ⟨he, -⟩
  · obtain ⟨l₀, rest, hout, hl⟩ := hhello
    exact ⟨l₀, rest, by rw [he, hout], hl⟩
  · exact hhello.append l he
  · exact absurd he hne

/-- The thread of a connection keeps what its own position says about its stream. -/
theorem own (hH : Handshaken s) {c : ConnId} {ans : Answer} (h : ConnMove env s c ans s') :
    (s'.conns c).shaken := by
  have hc := hH.shaken c
  cases h with
  | sweep hpc hsw | swept hpc hsw =>
    obtain ⟨hooks, n, calls, rfl⟩ := sweepStep_eq hsw
    simp_all [Conn.shaken, Conn.helloed]
  | refill hpc =>
    rcases hpc with hpc | hpc <;> simp_all [Conn.shaken, Conn.helloed]
  | @takeover _ old _ hpc =>
    have hout : (s.conns c).out = [] := by
      unfold Conn.shaken at hc
      rw [hpc] at hc
      exact hc.2
    by_cases ho : c = old.conn <;> simp_all [Conn.shaken]
  | @kickWrite old hpc =>
    have hout : (s.conns c).granted = true ∧ (s.conns c).out = [] := by
      unfold Conn.shaken at hc
      rw [hpc] at hc
      exact hc
    -- the displaced connection has its hello reply already, this one has written nothing
    have hne : c ≠ old := by
      rintro rfl
      obtain ⟨-, l, rest, hl, -⟩ := hH.kicks c c hpc
      rw [hout.2] at hl
      cases hl
    simp [Conn.shaken, hne, hout]
  | @kickShutdown old n hpc =>
    by_cases ho : c = old <;> simp_all [Conn.shaken]
  | helloSnap hlock hpc => simp_all [Conn.shaken, Event.isHello]
  | @reply _ l hpc =>
    unfold Conn.shaken at hc
    rw [hpc] at hc
    simp only [Conn.shaken, Sys.setPc, Sys.write, Sys.modConn, Function.update_self]
    exact fun hg => (hc hg).append l rfl
  | @stopIdle _ r hlock hpc =>
    unfold Conn.shaken at hc
    rw [hpc] at hc
    cases r <;> simpa [Conn.shaken, Conn.helloed, Sys.afterStopPc] using hc
  | @stopHook _ r g hpc =>
    unfold Conn.shaken at hc
    rw [hpc] at hc
    cases r <;> simpa [Conn.shaken, Conn.helloed, Sys.afterStopPc] using hc
  | _ => simp_all [Conn.shaken, Conn.helloed]

/-- Every other stream: at most it gets a line, and only behind its hello reply. -/
theorem shaken_step (hH : Handshaken s) {a : Action} (h : Move env s a s') (d : ConnId) :
    (s'.conns d).shaken := by
  have hd := hH.shaken d
  -- the thread stays where it is
  have keep : ∀ {k' : Conn}, k'.pc = (s.conns d).pc → k'.granted = (s.conns d).granted →
      k'.out = (s.conns d).out → k'.shaken := by
    intro k' hpc hg hout
    unfold Conn.shaken Conn.helloed at *
    rw [hpc, hg, hout]
    exact hd
  have grow : ∀ {k' : Conn} {l : Line}, Writes s d a l → (∀ ans, a ≠ .conn d ans) →
      k'.pc = (s.conns d).pc → k'.out = (s.conns d).out ++ [l] → k'.shaken := by
    intro k' l hw hother hpc hout
    have hg := hH.target hw hother
    exact hd.of_greeted hg hpc (hg.2.append l hout)
  cases h with
  | @conn c ans _ h =>
    by_cases hdc : d = c
    · exact hdc ▸ hH.own h
    · obtain ⟨hpc, -, hgr⟩ := h.of_ne hdc
      rcases h.out_cases d with hout | ⟨l, hw, hout⟩
      · exact keep hpc hgr hout
      · refine grow hw ?_ hpc hout
        rintro ans' he
        injection he with he
        exact hdc he.symm
  | monitor h =>
    rcases h.conns_cases d with he | ⟨l, hw, he⟩
    · rw [he]
      exact hd
    · exact grow hw (by simp) (by rw [he]) (by rw [he])
  | other h =>
    rcases h.conns_eq with ⟨uid, hc, -⟩ | ⟨-, hc⟩
    · rw [hc]
      by_cases hd' : d = s.nConns
      · rw [hd', Function.update_self]
        exact ⟨rfl, rfl⟩
      · rw [Function.update_of_ne hd']
        exact hd
    · obtain ⟨sock, closed, he⟩ := hc d
      rw [he]
      exact keep rfl rfl rfl

/-- The owner is granted the lease; whoever looks it up finds it greeted. -/
theorem owner_greeted (hH : Handshaken s) (hO : Tenure.Owned s.leaseView) {o : OwnerSlot}
    (ho : s.owner = some o) (hpc : (s.conns o.conn).pc.greeting = false) :
    (s.conns o.conn).greeted := by
  obtain ⟨hholds, -, -⟩ := hO.owner o.slot (Sys.leaseView_owner ho)
  exact (hH.shaken o.conn).greeted (hO.granted o.conn hholds) hpc

/-- A thread is about to tell a displaced owner only after it took the lease over. -/
theorem kick_of_takeover {c old : ConnId} {ans : Answer} (h : ConnMove env s c ans s')
    (hold : (s'.conns c).pc = .kickWrite old) :
    (s.conns c).pc = .lease true ∧ ∃ o, s.owner = some o ∧ o.conn = old := by
  cases h with
  | sweep hpc hsw | swept hpc hsw =>
    obtain ⟨hooks, n, calls, rfl⟩ := sweepStep_eq hsw
    simp at hold
  | @takeover _ o hlock hpc howner =>
    refine ⟨hpc, o, howner, ?_⟩
    simpa using hold
  | @stopIdle _ r | @stopHook _ r => cases r <;> simp [Sys.afterStopPc] at hold
  | _ => simp_all

/-- A monitor is about to write `core_exited` to whom it found owning. -/
theorem push_of_owner {g : Gen} {ans : Answer} (h : MonMove env s g ans s') {info : ExitInfo}
    {c : ConnId} (hpush : (s'.monitors g).pc = .pushWrite info c) :
    (s.monitors g).pc = .push info ∧ ∃ o, s.owner = some o ∧ o.conn = c := by
  cases h with
  | sweep hpc hsw | swept hpc hsw =>
    obtain ⟨hooks, n, calls, rfl⟩ := sweepStep_eq hsw
    simp at hpush
  | @push _ _ o hlock hpc howner =>
    simp at hpush
    exact ⟨hpush.1 ▸ hpc, o, howner, hpush.2⟩
  | @exit _ _ run =>
    revert hpush
    cases run.stopRequested <;> simp
  | _ => simp_all

theorem step (hH : Handshaken s) (hA : Accepted s) (hO : Tenure.Owned s.leaseView) {a : Action}
    (hp : GreetsFirst s a) (h : Move env s a s') : Handshaken s' where
  shaken := hH.shaken_step h
  kicks c old hold := by
    refine greeted_keep hA h ?_
    revert old
    refine h.forall_pc (Q := fun _ pc => ∀ old, pc = .kickWrite old → (s.conns old).greeted)
      (fun _ he => nomatch he) ?_ (fun c old => hH.kicks c old) c
    rintro c ans hm rfl old hold
    obtain ⟨hpc, o, ho, rfl⟩ := kick_of_takeover hm hold
    refine hH.owner_greeted hO ho ?_
    simpa [GreetsFirst, meetsGreeting, hpc, ho] using hp
  pushes g info c hpush := by
    refine greeted_keep hA h ?_
    revert info c
    refine h.forall_mon (Q := fun _ pc => ∀ info c, pc = .pushWrite info c → (s.conns c).greeted)
      (fun _ _ _ he => nomatch he) ?_ (fun g info c => hH.pushes g info c) g
    rintro g ans hm rfl info c hpush
    obtain ⟨hpc, o, ho, rfl⟩ := push_of_owner hm hpush
    refine hH.owner_greeted hO ho ?_
    simpa [GreetsFirst, meetsGreeting, hpc, ho] using hp

theorem of_reachable (h : (supervisor env).ReachableBy GreetsFirst s) : Handshaken s :=
  h.invariant Handshaken.init fun hr hH hp hs =>
    hH.step (.of_reachable hr.reachable) (owned_of_reachable hr.reachable) hp (step_move hs).2

end Handshaken

/-! ## The claim about runs -/

/-- The first line on the stream of a connection that was granted the lease is its
hello reply. -/
def HelloFirst (s : Sys) : Prop :=
  ∀ c, (s.conns c).granted = true → ∀ l, (s.conns c).out.head? = some l → l.ev.isHello = true

/-- **The first line is the handshake**, as long as no push and no takeover finds an
owner that is still greeting. -/
theorem hello_first (h : (supervisor env).ReachableBy GreetsFirst s) : HelloFirst s := by
  intro c hg l hl
  have hc := (Handshaken.of_reachable h).shaken c
  unfold Conn.shaken at hc
  split at hc
  · rw [hc.1] at hg
    cases hg
  · rw [hc.1] at hg
    cases hg
  · rw [hc.1] at hg
    cases hg
  · rw [hc.1] at hg
    cases hg
  · rw [hc.2] at hl
    cases hl
  · rw [hc.2] at hl
    cases hl
  · rw [hc.2] at hl
    cases hl
  · rw [hc.2.1] at hl
    cases hl
  · obtain ⟨l₀, rest, hout, hl₀⟩ := hc hg
    rw [hout] at hl
    injection hl with hl
    exact hl ▸ hl₀

namespace Client

/-- The core dies while the connection that takes the lease over is still about to
tell the displaced owner. -/
def exitDuringTakeover : List Action :=
  [boot, connect 0 helloText, own 0, start 0 7, connect 1 takeoverText, [.conn 1 .done],
    perish 0, [.monitor 0 .done, .monitor 0 .done]].flatten

/-- A takeover that tells the displaced owner, which has its hello reply. -/
def kickedAfterHello : List Action :=
  [boot, connect 0 helloText, own 0, connect 1 takeoverText,
    [.conn 1 .done, .conn 1 .done, .conn 1 (.keep 0), .conn 1 .done, .conn 1 .done]].flatten

end Client

/-- `core_exited` is the first line on the stream of a new owner. -/
theorem exited_before_hello : ∃ s, (supervisor Client.env).Reachable s ∧
    (s.conns 1).granted = true ∧
    (s.conns 1).out = [⟨.coreExited (some 0) none, some (.stopped 0)⟩] := by
  obtain ⟨s, hs, hp⟩ := exists_reachableBy Client.env (fun _ _ => True) Client.exitDuringTakeover
    (fun s => decide ((s.conns 1).granted = true ∧
      (s.conns 1).out = [⟨.coreExited (some 0) none, some (.stopped 0)⟩])) (by decide +kernel)
  obtain ⟨hg, hout⟩ := of_decide_eq_true hp
  exact ⟨s, hs, hg, hout⟩

theorem hello_first_takeover : ∃ s, (supervisor Client.env).ReachableBy GreetsFirst s ∧
    (s.conns 0).out.length = 2 ∧ (s.conns 1).out.length = 1 ∧ HelloFirst s := by
  obtain ⟨s, hs, hp⟩ := exists_reachableBy Client.env GreetsFirst Client.kickedAfterHello
    (fun s => decide ((s.conns 0).out.length = 2 ∧ (s.conns 1).out.length = 1)) (by decide +kernel)
  obtain ⟨h0, h1⟩ := of_decide_eq_true hp
  exact ⟨s, hs, h0, h1, hello_first hs⟩

end EasyTierMac.Supervisor
