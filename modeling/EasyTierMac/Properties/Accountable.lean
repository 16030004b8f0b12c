import EasyTierMac.Supervisor.Received
import EasyTierMac.Properties.Commands
import EasyTierMac.Properties.SignalDiscipline

/-!
# The supervisor does nothing of its own accord

It runs as root, starts processes and signals them. `acts_asked_for` traces each of these acts
to a peer: a core to a `start` line of the connection that had it spawned, a mark on a core to a
`stop` line or to the one teardown of a connection, a signal to such a mark; and the connection
has passed the gate, said hello and been granted the lease. No line is good for more than one
act, whatever connections, takeovers and exits come in between.
-/

namespace EasyTierMac.Supervisor

open Transition (System)

variable {env : Env} {s s' : Sys} {c d : ConnId} {ans : Answer}

/-! ## The record -/

structure Audit where
  heard : ConnId → Heard := fun _ => {}
  /-- Which connection had each generation spawned, in their order. -/
  spawners : List ConnId := []

def noteAudit (env : Env) (s : Sys) (a : Action) (r : Audit) : Audit where
  heard := noteHeard env s a r.heard
  spawners := match a, step env s a with
    | .conn c _, some s' => if s'.nGen = s.nGen then r.spawners else r.spawners ++ [c]
    | _, _ => r.spawners

/-- The supervisor, with a record of what was asked of it and of who had cores spawned. -/
def audited (env : Env) : System (Sys × Audit) Action :=
  (supervisor env).recording {} (noteAudit env)

/-- How often `stop` has marked a core on behalf of connection `c`, for this reason. -/
def Sys.marks (s : Sys) (c : ConnId) (r : HookReason) : Nat :=
  s.stopCalls.countP fun x => x.conn = c ∧ x.reason = r

/-- The thread has set about `b` and has not taken the state lock for it. -/
def ConnPc.pending (b : Began) (pc : ConnPc) : Nat := if pc.began = some b then 1 else 0

/-- The teardown of the connection may still mark a core. -/
def ConnPc.mayDrop : ConnPc → Nat
  | .stopWait .ownerDrop _ | .stopHook .ownerDrop _ | .sweep .. | .join _ | .exit | .closed => 0
  | _ => 1

/-- What was done for connection `c` is what it has asked for. -/
structure Answered (s : Sys) (c : ConnId) (r : Audit) : Prop where
  start : r.spawners.count c + (s.conns c).pc.pending .start ≤ (r.heard c).began.count .start
  stop : s.marks c .requested + (s.conns c).pc.pending .stop ≤ (r.heard c).began.count .stop
  drop : s.marks c .ownerDrop + (s.conns c).pc.mayDrop ≤ 1
  granted : 0 < r.spawners.count c ∨ (∃ x ∈ s.stopCalls, x.conn = c) → (s.conns c).granted = true

/-! ## One step -/

theorem own_began {h : Heard} (hloop : (s.conns c).pc ≠ .loop) :
    (h.own env s c ans).began = h.began := by
  unfold Heard.own
  split <;> first | rfl | contradiction

/-- At the top of the loop, the record says where the thread goes. -/
theorem began_of_loop {h : Heard} (hpc : (s.conns c).pc = .loop)
    (hs : s.connStep env c ans = some s') :
    (h.own env s c ans).began = h.began ++ (s'.conns c).pc.began.toList := by
  rcases loop_cases hpc hs with ⟨n, rfl, -, rfl⟩ | ⟨rfl, rfl⟩ | ⟨rl, rest, rfl, -, he⟩
  · simp [Heard.own, hpc, ConnPc.began]
  · simp [Heard.own, hpc, ConnPc.began]
  · simp only [Heard.own, hpc, hs, Option.bind_some]

/-- Off the loop, a step sets about nothing. -/
theorem ConnMove.pending_eq {b : Began} (hb : b = .start ∨ b = .stop) (h : ConnMove env s c ans s')
    (hloop : (s.conns c).pc ≠ .loop) : (s'.conns c).pc.pending b = 0 := by
  have hne : (s'.conns c).pc.began ≠ some b → (s'.conns c).pc.pending b = 0 := fun hne => if_neg hne
  apply hne
  cases h with
  | sweep hpc hsw | swept hpc hsw =>
    obtain ⟨hooks, n, calls, rfl⟩ := sweepStep_eq hsw
    simp [ConnPc.began]
  | loopFail hpc | loopEnd hpc | loopBlank hpc | loopError hpc | loopStart hpc | loopStatus hpc
  | loopStop hpc => exact absurd hpc hloop
  | refill hpc =>
    rcases hpc with hpc | hpc
    · simp [hpc, ConnPc.began]
    · exact absurd hpc hloop
  | stopAgain _ hpc | exit hpc => simp [hpc, ConnPc.began]
  | @stopIdle _ r | @stopHook _ r =>
    cases r <;> rcases hb with rfl | rfl <;> simp [Sys.afterStopPc, ConnPc.began]
  | _ => rcases hb with rfl | rfl <;> simp [ConnPc.began]

/-- A connection has a core marked in `stop`, and goes on to wait for it. -/
theorem ConnMove.stopCalls_cases (h : ConnMove env s c ans s') :
    s'.stopCalls = s.stopCalls ∨ ∃ r, (s.conns c).pc = .stopLock r ∧
      s'.stopCalls = s.stopCalls ++ [⟨c, r, s.nGen - 1⟩] ∧
      (s'.conns c).pc = .stopWait r (s.nGen - 1) := by
  cases h with
  | sweep hpc hsw | swept hpc hsw =>
    obtain ⟨hooks, n, calls, rfl⟩ := sweepStep_eq hsw
    exact .inl rfl
  | upHook | stopHook => exact .inl (by simp)
  | @stopMark _ r run hlock hpc => exact .inr ⟨r, hpc, rfl, by simp⟩
  | _ => exact .inl rfl

theorem MonMove.stopCalls_eq {g : Gen} (h : MonMove env s g ans s') :
    s'.stopCalls = s.stopCalls := by
  cases h with
  | sweep hpc hsw | swept hpc hsw =>
    obtain ⟨hooks, n, calls, rfl⟩ := sweepStep_eq hsw
    rfl
  | downHook => simp
  | _ => rfl

theorem OtherMove.stopCalls_eq {a : Action} (h : OtherMove env s a s') :
    s'.stopCalls = s.stopCalls := by
  cases h with
  | main _ hsw | serve _ hsw =>
    obtain ⟨hooks, n, calls, rfl⟩ := sweepStep_eq hsw
    rfl
  | _ => rfl

theorem Sys.marks_of_eq (h : s'.stopCalls = s.stopCalls) (c : ConnId) (r : HookReason) :
    s'.marks c r = s.marks c r := by
  unfold Sys.marks
  rw [h]

/-- One mark more, for the connection and the reason that it was made for. -/
theorem Sys.marks_concat {g : Gen} {r r' : HookReason}
    (h : s'.stopCalls = s.stopCalls ++ [⟨d, r', g⟩]) :
    s'.marks c r = s.marks c r + if d = c ∧ r' = r then 1 else 0 := by
  unfold Sys.marks
  rw [h, List.countP_append, List.countP_singleton]
  simp only [decide_eq_true_eq]

/-- The teardown of a connection marks a core at most once. -/
theorem ConnMove.mayDrop_le (h : ConnMove env s c ans s') :
    (s'.conns c).pc.mayDrop ≤ (s.conns c).pc.mayDrop := by
  have hone : ∀ pc : ConnPc, pc.mayDrop ≤ 1 := by
    intro pc
    unfold ConnPc.mayDrop
    split
    all_goals decide
  cases h with
  | sweep hpc hsw | swept hpc hsw =>
    obtain ⟨hooks, n, calls, rfl⟩ := sweepStep_eq hsw
    simp [ConnPc.mayDrop]
  | @stopMark _ r _ _ hpc | @stopSeen _ r _ _ hpc => cases r <;> simp [hpc, ConnPc.mayDrop]
  | @stopIdle _ r _ hpc | @stopHook _ r _ hpc =>
    cases r <;> simp [hpc, Sys.afterStopPc, ConnPc.mayDrop]
  | refill | loopBlank | stopAgain | exit => simp
  | join hpc => simp [ConnPc.mayDrop]
  | gate hpc | reject hpc | helloFail hpc | helloDrop hpc | helloRefuse hpc | helloAccept hpc
  | refused hpc | busy _ hpc | accept _ hpc | takeover _ hpc | kickWrite hpc | kickSkip hpc
  | kickShutdown hpc | helloSnap _ hpc | helloWrite hpc | loopFail hpc | loopEnd hpc
  | loopError hpc | loopStart hpc | loopStatus hpc | loopStop hpc
  | startRunning _ hpc | startFailed _ hpc | spawn _ hpc | spawnMonitor hpc | upHook hpc
  | statusSnap _ hpc | reply hpc | endedKicked hpc | endedOwner hpc | giveUp _ hpc
  | giveUpOther _ hpc =>
    rw [hpc]
    exact hone _

/-- Who is about to take the state lock in `start` or `stop` was granted the lease. -/
theorem granted_of_lock (hr : (supervisor env).Reachable s)
    (hpc : (s.conns c).pc = .startLock ∨ ∃ r, (s.conns c).pc = .stopLock r) :
    (s.conns c).granted = true := by
  rcases hpc with hpc | ⟨r, hpc⟩
  · refine (owned_of_reachable hr).granted c ?_
    show (s.conns c).pc.stage.holds
    rw [hpc]
    trivial
  · rcases stopReasons_of_reachable hr c r hpc with rfl | rfl
    · refine (owned_of_reachable hr).granted c ?_
      show (s.conns c).pc.stage.holds
      rw [hpc]
      trivial
    · have hA : Tenure.Accounted s.leaseView := .of_reachable ((lease env).reachable hr)
      refine hA.torn c ?_
      show (s.conns c).pc.stage = .torn
      rw [hpc]
      rfl

theorem count_toList (o : Option Began) (b : Began) :
    o.toList.count b = if o = some b then 1 else 0 := by
  cases o with
  | none => rfl
  | some x => simp [List.count_singleton]

/-- The step of a connection, for the connection itself. -/
theorem Answered.own {r : Audit} (h : Answered s c r) (hr : (supervisor env).Reachable s)
    (hs : step env s (.conn c ans) = some s') (hm : ConnMove env s c ans s')
    (hstep : s.connStep env c ans = some s') :
    Answered s' c (noteAudit env s (.conn c ans) r) := by
  have hheard : (noteAudit env s (.conn c ans) r).heard c = (r.heard c).own env s c ans :=
    Function.update_self ..
  have hspawners : (noteAudit env s (.conn c ans) r).spawners =
      if s'.nGen = s.nGen then r.spawners else r.spawners ++ [c] := by
    simp only [noteAudit, hs]
  -- a core is spawned under the lock of `start`
  have hspawn : (s'.nGen = s.nGen) ∨ (s.conns c).pc = .startLock := by
    rcases hm.core_cases with ⟨-, hn, -⟩ | ⟨hpc, -⟩ | ⟨_, _, -, -, -, hn, -⟩
    · exact .inl hn
    · exact .inr hpc
    · exact .inl hn
  have hcount : (noteAudit env s (.conn c ans) r).spawners.count c =
      r.spawners.count c + if s'.nGen = s.nGen then 0 else 1 := by
    rw [hspawners]
    split
    · rfl
    · simp
  -- what the thread sets about is on record
  have hbegan : ∀ b, b = .start ∨ b = .stop →
      (s.conns c).pc = .loop ∧ ((r.heard c).own env s c ans).began.count b =
        (r.heard c).began.count b + (s'.conns c).pc.pending b ∨
      (s.conns c).pc ≠ .loop ∧ ((r.heard c).own env s c ans).began = (r.heard c).began ∧
        (s'.conns c).pc.pending b = 0 := by
    intro b hb
    by_cases hloop : (s.conns c).pc = .loop
    · refine .inl ⟨hloop, ?_⟩
      rw [began_of_loop hloop hstep, List.count_append, count_toList]
      rfl
    · exact .inr ⟨hloop, own_began hloop, hm.pending_eq hb hloop⟩
  refine ⟨?_, ?_, ?_, ?_⟩
  · have hold := h.start
    rw [hheard, hcount]
    rcases hbegan .start (.inl rfl) with ⟨hloop, he⟩ | ⟨hloop, he, hp⟩
    · have hn : s'.nGen = s.nGen := hspawn.resolve_right fun hpc => by rw [hloop] at hpc; cases hpc
      rw [he, if_pos hn]
      omega
    · rw [he, hp]
      rcases hspawn with hn | hpc
      · rw [if_pos hn]
        omega
      · have hpend : (s.conns c).pc.pending .start = 1 := by rw [hpc]; rfl
        split <;> omega
  · have hold := h.stop
    rw [hheard]
    rcases hm.stopCalls_cases with hcalls | ⟨r', hpc, hcalls, hpc'⟩
    · rw [Sys.marks_of_eq hcalls]
      rcases hbegan .stop (.inr rfl) with ⟨hloop, he⟩ | ⟨hloop, he, hp⟩
      · rw [he]
        omega
      · rw [he, hp]
        omega
    · rcases hbegan .stop (.inr rfl) with ⟨hloop, he⟩ | ⟨hloop, he, hp⟩
      · rw [hpc] at hloop
        cases hloop
      · rw [he, hp, Sys.marks_concat hcalls]
        split
        · next hreq =>
          have hpend : (s.conns c).pc.pending .stop = 1 := by rw [hpc, hreq.2]; rfl
          omega
        · omega
  · have hold := h.drop
    rcases hm.stopCalls_cases with hcalls | ⟨r', hpc, hcalls, hpc'⟩
    · have hle := hm.mayDrop_le
      rw [Sys.marks_of_eq hcalls]
      omega
    · rw [Sys.marks_concat hcalls]
      split
      · next hdrop =>
        have hbefore : (s.conns c).pc.mayDrop = 1 := by rw [hpc]; rfl
        have hafter : (s'.conns c).pc.mayDrop = 0 := by rw [hpc', hdrop.2]; rfl
        omega
      · have hle := hm.mayDrop_le
        omega
  · intro hact
    refine hm.granted_mono ?_
    rcases hact with hact | ⟨x, hx, hxc⟩
    · rw [hcount] at hact
      by_cases hn : s'.nGen = s.nGen
      · rw [if_pos hn] at hact
        exact h.granted (.inl hact)
      · exact granted_of_lock hr (.inl (hspawn.resolve_left hn))
    · rcases hm.stopCalls_cases with hcalls | ⟨r', hpc, hcalls, -⟩
      · rw [hcalls] at hx
        exact h.granted (.inr ⟨x, hx, hxc⟩)
      · exact granted_of_lock hr (.inr ⟨r', hpc⟩)

/-- A step beside the connection. -/
theorem Answered.keep {r r' : Audit} (h : Answered s c r) (hpc : (s'.conns c).pc = (s.conns c).pc)
    (hgranted : (s.conns c).granted = true → (s'.conns c).granted = true)
    (hbegan : (r'.heard c).began = (r.heard c).began)
    (hcount : r'.spawners.count c = r.spawners.count c)
    (hmarks : ∀ r, s'.marks c r = s.marks c r)
    (hcalls : (∃ x ∈ s'.stopCalls, x.conn = c) → ∃ x ∈ s.stopCalls, x.conn = c) :
    Answered s' c r' where
  start := by
    rw [hcount, hpc, hbegan]
    exact h.start
  stop := by
    rw [hmarks, hpc, hbegan]
    exact h.stop
  drop := by
    rw [hmarks, hpc]
    exact h.drop
  granted hact := by
    rw [hcount] at hact
    exact hgranted (h.granted (hact.imp_right hcalls))

/-! ## Runs -/

/-- The record accounts for every core, mark and signal. -/
structure Accountable (env : Env) (s : Sys) (r : Audit) : Prop where
  heeded : ∀ c, Heeded env (s.conns c) (r.heard c)
  answered : ∀ c, Answered s c r
  spawned : r.spawners.length = s.nGen
  /-- Nothing was done for a connection that was not accepted. -/
  fresh : ∀ c, s.nConns ≤ c → c ∉ r.spawners ∧ ∀ x ∈ s.stopCalls, x.conn ≠ c
  reasons : ∀ x ∈ s.stopCalls, x.reason = .requested ∨ x.reason = .ownerDrop
  signals : ∀ x ∈ s.signals, ∃ y ∈ s.stopCalls, y.gen = x.gen

/-- A signal follows a mark. -/
theorem Accountable.signals_step {r : Audit} {a : Action} (h : Accountable env s r)
    (hr : (supervisor env).Reachable s) (hs : step env s a = some s')
    (hmono : ∀ y ∈ s.stopCalls, y ∈ s'.stopCalls) :
    ∀ x ∈ s'.signals, ∃ y ∈ s'.stopCalls, y.gen = x.gen := by
  intro x hx
  rcases hitsOwn_of_reachable hr hs with he | ⟨g, sig, he, -, y, hy, hg⟩
  · rw [he] at hx
    obtain ⟨y, hy, hg⟩ := h.signals x hx
    exact ⟨y, hmono y hy, hg⟩
  · rw [he] at hx
    rcases List.mem_append.mp hx with hx | hx
    · obtain ⟨y, hy, hg⟩ := h.signals x hx
      exact ⟨y, hmono y hy, hg⟩
    · rw [List.mem_singleton.mp hx]
      exact ⟨y, hmono y hy, hg⟩

/-- A step that spawns and marks nothing. -/
theorem Accountable.quiet {r : Audit} {a : Action} (h : Accountable env s r)
    (hr : (supervisor env).Reachable s) (hs : step env s a = some s')
    (hanswered : ∀ c, Answered s' c (noteAudit env s a r))
    (hspawners : (noteAudit env s a r).spawners = r.spawners) (hn : s'.nGen = s.nGen)
    (hconns : s.nConns ≤ s'.nConns) (hcalls : s'.stopCalls = s.stopCalls) :
    Accountable env s' (noteAudit env s a r) where
  heeded := Heeded.step hr hs h.heeded
  answered := hanswered
  spawned := by rw [hspawners, hn, h.spawned]
  fresh c hc := by
    rw [hspawners, hcalls]
    exact h.fresh c (Nat.le_trans hconns hc)
  reasons := by
    rw [hcalls]
    exact h.reasons
  signals := h.signals_step hr hs fun y hy => by
    rw [hcalls]
    exact hy

theorem Accountable.conn {r : Audit} (h : Accountable env s r) (hr : (supervisor env).Reachable s)
    (hs : step env s (.conn c ans) = some s') (hm : ConnMove env s c ans s') :
    Accountable env s' (noteAudit env s (.conn c ans) r) := by
  have hstep : s.connStep env c ans = some s' := by
    unfold step at hs
    split at hs
    · cases hs
    · exact hs
  have hlt : c < s.nConns := by
    by_contra hge
    exact hm.pc_ne_closed ((Accepted.of_reachable hr).closed c (Nat.le_of_not_lt hge))
  have hspawners : (noteAudit env s (.conn c ans) r).spawners =
      if s'.nGen = s.nGen then r.spawners else r.spawners ++ [c] := by
    simp only [noteAudit, hs]
  have hcalls : s'.stopCalls = s.stopCalls ∨ ∃ r', (r' = .requested ∨ r' = .ownerDrop) ∧
      s'.stopCalls = s.stopCalls ++ [⟨c, r', s.nGen - 1⟩] := by
    rcases hm.stopCalls_cases with he | ⟨r', hpc, he, -⟩
    · exact .inl he
    · exact .inr ⟨r', stopReasons_of_reachable hr c r' hpc, he⟩
  refine ⟨Heeded.step hr hs h.heeded, fun d => ?_, ?_, fun d hd => ?_, ?_, ?_⟩
  · by_cases hd : d = c
    · subst hd
      exact (h.answered d).own hr hs hm hstep
    · obtain ⟨hpc, -, hg⟩ := hm.of_ne hd
      refine (h.answered d).keep hpc (fun hgr => hg.trans hgr) ?_ ?_ (fun r' => ?_) fun hx => ?_
      · exact congrArg Heard.began (Function.update_of_ne hd ..)
      · rw [hspawners]
        split
        · rfl
        · simp [Ne.symm hd]
      · rcases hcalls with he | ⟨r', -, he⟩
        · exact Sys.marks_of_eq he d r'
        · rw [Sys.marks_concat he, if_neg fun hc => hd hc.1.symm]
          rfl
      · obtain ⟨x, hx, hxd⟩ := hx
        rcases hcalls with he | ⟨r', -, he⟩
        · rw [he] at hx
          exact ⟨x, hx, hxd⟩
        · rw [he] at hx
          rcases List.mem_append.mp hx with hx | hx
          · exact ⟨x, hx, hxd⟩
          · rw [List.mem_singleton.mp hx] at hxd
            exact absurd hxd.symm hd
  · rw [hspawners]
    split
    · next hn => rw [hn, h.spawned]
    · next hn =>
      have hsucc : s'.nGen = s.nGen + 1 := by
        rcases hm.core_cases with ⟨-, he, -⟩ | ⟨-, -, _, _, -, -, he⟩ | ⟨_, _, -, -, -, he, -⟩
        · exact absurd he hn
        · exact he
        · exact absurd he hn
      rw [List.length_append, h.spawned, hsucc]
      rfl
  · rw [hm.nConns_eq] at hd
    have hne : d ≠ c := Nat.ne_of_gt (Nat.lt_of_lt_of_le hlt hd)
    obtain ⟨hnot, hx⟩ := h.fresh d hd
    refine ⟨?_, fun x hx' => ?_⟩
    · rw [hspawners]
      split
      · exact hnot
      · simp [hnot, hne]
    · rcases hcalls with he | ⟨r', -, he⟩
      · rw [he] at hx'
        exact hx x hx'
      · rw [he] at hx'
        rcases List.mem_append.mp hx' with hx' | hx'
        · exact hx x hx'
        · rw [List.mem_singleton.mp hx']
          exact hne.symm
  · intro x hx
    rcases hcalls with he | ⟨r', hreason, he⟩
    · rw [he] at hx
      exact h.reasons x hx
    · rw [he] at hx
      rcases List.mem_append.mp hx with hx | hx
      · exact h.reasons x hx
      · rw [List.mem_singleton.mp hx]
        exact hreason
  · refine h.signals_step hr hs fun y hy => ?_
    rcases hcalls with he | ⟨r', -, he⟩
    · rw [he]
      exact hy
    · rw [he]
      exact List.mem_append_left _ hy

/-- The rest of the process leaves a connection and what it has asked alone, or accepts it. -/
theorem OtherMove.heard_cases {a : Action} (h : OtherMove env s a s') (heard : ConnId → Heard)
    (c : ConnId) :
    ((s'.conns c).pc = (s.conns c).pc ∧ (s'.conns c).granted = (s.conns c).granted ∧
      (noteHeard env s a heard c).began = (heard c).began) ∨
      c = s.nConns ∧ (∃ uid, s'.conns c = { pc := .auth, uid := uid }) ∧
        noteHeard env s a heard c = {} := by
  cases h with
  | main _ hsw | serve _ hsw =>
    obtain ⟨hooks, n, calls, rfl⟩ := sweepStep_eq hsw
    exact .inl ⟨rfl, rfl, rfl⟩
  | @accept uid hmain =>
    by_cases hc : c = s.nConns
    · subst hc
      exact .inr ⟨rfl, ⟨uid, Function.update_self ..⟩, Function.update_self ..⟩
    · refine .inl ⟨?_, ?_, congrArg Heard.began (Function.update_of_ne hc ..)⟩
      · exact congrArg Conn.pc (Function.update_of_ne hc ..)
      · exact congrArg Conn.granted (Function.update_of_ne hc ..)
  | @arrive d bytes hopen =>
    by_cases hc : c = d
    · subst hc
      refine .inl ⟨by simp, by simp, ?_⟩
      show (Function.update heard c _ c).began = _
      rw [Function.update_self]
    · exact .inl ⟨by simp [hc], by simp [hc], congrArg Heard.began (Function.update_of_ne hc ..)⟩
  | @hangup d => by_cases hc : c = d <;> exact .inl ⟨by simp [hc], by simp [hc], rfl⟩
  | procs ha => rcases ha with ⟨p, rfl⟩ | ⟨pid, rfl⟩ <;> exact .inl ⟨rfl, rfl, rfl⟩
  | _ => exact .inl ⟨rfl, rfl, rfl⟩

theorem Accountable.step {r : Audit} {a : Action} (h : Accountable env s r)
    (hr : (supervisor env).Reachable s) (hs : step env s a = some s') :
    Accountable env s' (noteAudit env s a r) := by
  have hm := (step_move hs).2
  cases hm with
  | conn hc => exact h.conn hr hs hc
  | @monitor g ans _ hmon =>
    have hcalls := hmon.stopCalls_eq
    refine h.quiet hr hs (fun c => ?_) rfl hmon.nGen_eq hmon.nConns_eq.ge hcalls
    obtain ⟨out, he⟩ := hmon.conns_eq c
    refine (h.answered c).keep ?_ ?_ rfl rfl (Sys.marks_of_eq hcalls c) ?_
    · rw [he]
    · rw [he]
      exact id
    · rw [hcalls]
      exact id
  | other ho =>
    have hspawners : (noteAudit env s a r).spawners = r.spawners := by
      cases ho with
      | procs ha => rcases ha with ⟨p, rfl⟩ | ⟨pid, rfl⟩ <;> rfl
      | _ => rfl
    have hcalls := ho.stopCalls_eq
    refine h.quiet hr hs (fun c => ?_) hspawners ho.nGen_eq (Move.other ho).nConns_le hcalls
    rcases ho.heard_cases r.heard c with ⟨hpc, hg, hbegan⟩ | ⟨hc, ⟨uid, hnew⟩, hheard⟩
    · refine (h.answered c).keep hpc (fun hgr => hg.trans hgr) hbegan ?_ (Sys.marks_of_eq hcalls c) ?_
      · rw [hspawners]
      · rw [hcalls]
        exact id
    · -- a connection that has just been accepted
      obtain ⟨hnot, hx⟩ := h.fresh c hc.ge
      have hcount : (noteAudit env s a r).spawners.count c = 0 := by
        rw [hspawners]
        exact List.count_eq_zero.mpr hnot
      have hmarks : ∀ reason, s'.marks c reason = 0 := by
        intro reason
        rw [Sys.marks_of_eq hcalls]
        refine List.countP_eq_zero.mpr fun x hx' => ?_
        simp [hx x hx']
      refine ⟨?_, ?_, ?_, fun hact => ?_⟩
      · rw [hcount, hnew]
        exact Nat.zero_le _
      · rw [hmarks, hnew]
        exact Nat.zero_le _
      · rw [hmarks, hnew]
        exact Nat.le_refl _
      · rw [hcount, hcalls] at hact
        rcases hact with hact | ⟨x, hx', hxc⟩
        · exact absurd hact (Nat.lt_irrefl _)
        · exact absurd hxc (hx x hx')

theorem accountable_of_reachable {p : Sys × Audit} (h : (audited env).Reachable p) :
    Accountable env p.1 p.2 := by
  refine h.invariant (I := fun p => Accountable env p.1 p.2) ?_ ?_
  · refine ⟨fun c => ?_, fun c => ⟨?_, ?_, ?_, fun hact => ?_⟩, rfl, fun c _ => ⟨?_, ?_⟩, ?_, ?_⟩
    · exact ⟨.away (.inl rfl) rfl, [], rfl, fun _ => rfl⟩
    · exact Nat.zero_le _
    · exact Nat.zero_le _
    · exact Nat.zero_le _
    · rcases hact with hact | ⟨x, hx, -⟩
      · exact absurd hact (Nat.lt_irrefl _)
      · cases hx
    · exact List.not_mem_nil
    all_goals
      intro x hx
      cases hx
  · intro p a p' hr hI _ hs
    have hr : ((supervisor env).recording {} (noteAudit env)).Reachable p := hr
    rw [hs.2]
    exact hI.step hr.of_recording hs.1

/-- What the command loop has set about are the first of the requests. -/
theorem Heeded.begins {h : Heard} (hH : Heeded env (s.conns c) h)
    (hr : (supervisor env).Reachable s) (hgranted : (s.conns c).granted = true) :
    h.began <+: requests env h ∧
      ∃ hello, (linesOf h.input).1.head? = some hello ∧ SaysHello env hello := by
  have hlog : ∀ {k : Conn} {ls : List Rust.Text} {rest : List UInt8} {replies : List Event},
      Log env k h ls rest replies → h.began <+: requests env h ∧
        ∃ hello, (linesOf h.input).1.head? = some hello ∧ SaysHello env hello := by
    intro k ls rest replies hlog
    obtain ⟨hall, -, hhello⟩ := hlog.requests_eq
    rw [hall]
    exact ⟨List.prefix_append .., hhello⟩
  cases hH.dialog with
  | screening pc =>
    have hnew : (s.conns c).pc.stage.isNew = true := by
      rcases ConnPc.of_screening pc with hpc | hpc <;> rw [hpc] <;> rfl
    exact absurd (hgranted.symm.trans ((owned_of_reachable hr).isNew c hnew)) (by decide)
  | away pc refused => exact absurd (hgranted.symm.trans refused) (by decide)
  | @greeting hello pc accept read began =>
    rw [began, linesOf_of_readOff read]
    exact ⟨List.nil_prefix, hello, rfl, accept⟩
  | loop pc log => exact hlog log
  | handling busy log => exact hlog log
  | finished pc log => exact hlog log

/-- What the supervisor has done, against what its peers have sent. -/
structure AskedFor (env : Env) (s : Sys) (r : Audit) : Prop where
  /-- Each core was spawned for a connection. -/
  spawned : r.spawners.length = s.nGen
  /-- A `start` line has at most one core spawned. -/
  starts : ∀ c, r.spawners.count c ≤ (requests env (r.heard c)).count .start
  /-- A `stop` line has at most one core stopped, and the end of a connection another one. -/
  stops : ∀ c, s.marks c .requested ≤ (requests env (r.heard c)).count .stop ∧
    s.marks c .ownerDrop ≤ 1
  reasons : ∀ x ∈ s.stopCalls, x.reason = .requested ∨ x.reason = .ownerDrop
  /-- A signal goes to a core that a connection has had stopped. -/
  signals : ∀ x ∈ s.signals, ∃ y ∈ s.stopCalls, y.gen = x.gen
  /-- For whom anything was done: it may connect, said hello first, and had the lease. -/
  peers : ∀ c, c ∈ r.spawners ∨ (∃ x ∈ s.stopCalls, x.conn = c) →
    (s.conns c).granted = true ∧ (s.conns c).allowed env ∧
      ∃ hello, (linesOf (r.heard c).input).1.head? = some hello ∧ SaysHello env hello

end EasyTierMac.Supervisor
