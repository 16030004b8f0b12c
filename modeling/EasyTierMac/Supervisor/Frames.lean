import EasyTierMac.Supervisor.Moves

/-!
# What the moves leave alone

The primitive updates are simp lemmas from here on, so that a field of the state
after a move reduces to a field of the state before it. `run_hook` and the sweep
only start hook threads (`Sys.runHook_eq`, `Swept.eq`). Connections that were
never accepted have no thread (`Accepted`).
-/

namespace EasyTierMac.Supervisor

open Function (update update_apply)

attribute [simp] Sys.modConn Sys.setPc Sys.write Sys.modMon Sys.setMonPc Sys.setLife
  Sys.spawnChild Sys.markStop Sys.sendSignal Sys.monArm Sys.monSendKill Sys.setStopped
  Sys.monPushWrite Sys.setLocked Sys.setBuf Sys.takeId Sys.setOwner Sys.kick Sys.clearOwner
  Sys.exit Sys.setTimer Sys.setHook Sys.spawnMonitor Sys.afterStop

variable {env : Env} {s s' : Sys}

/-- `run_hook` changes the hook threads and the record of its calls. -/
theorem Sys.runHook_eq (s : Sys) (env : Env) (call : HookCall) (joiner : Option ConnId)
    (st : Stat) : ∃ hooks n, s.runHook env call joiner st =
      { s with hooks := hooks, nHooks := n, hookCalls := s.hookCalls ++ [call] } := by
  unfold Sys.runHook
  dsimp only
  split
  · exact ⟨_, _, rfl⟩
  · exact ⟨_, _, rfl⟩

section

variable (s : Sys) (env : Env) (call : HookCall) (joiner : Option ConnId) (st : Stat)

@[simp] theorem Sys.runHook_owner : (s.runHook env call joiner st).owner = s.owner := by
  obtain ⟨hooks, n, he⟩ := s.runHook_eq env call joiner st
  rw [he]

@[simp] theorem Sys.runHook_core : (s.runHook env call joiner st).core = s.core := by
  obtain ⟨hooks, n, he⟩ := s.runHook_eq env call joiner st
  rw [he]

@[simp] theorem Sys.runHook_conns : (s.runHook env call joiner st).conns = s.conns := by
  obtain ⟨hooks, n, he⟩ := s.runHook_eq env call joiner st
  rw [he]

@[simp] theorem Sys.runHook_nConns : (s.runHook env call joiner st).nConns = s.nConns := by
  obtain ⟨hooks, n, he⟩ := s.runHook_eq env call joiner st
  rw [he]

@[simp] theorem Sys.runHook_monitors : (s.runHook env call joiner st).monitors = s.monitors := by
  obtain ⟨hooks, n, he⟩ := s.runHook_eq env call joiner st
  rw [he]

@[simp] theorem Sys.runHook_children : (s.runHook env call joiner st).children = s.children := by
  obtain ⟨hooks, n, he⟩ := s.runHook_eq env call joiner st
  rw [he]

@[simp] theorem Sys.runHook_nGen : (s.runHook env call joiner st).nGen = s.nGen := by
  obtain ⟨hooks, n, he⟩ := s.runHook_eq env call joiner st
  rw [he]

@[simp] theorem Sys.runHook_timer : (s.runHook env call joiner st).timer = s.timer := by
  obtain ⟨hooks, n, he⟩ := s.runHook_eq env call joiner st
  rw [he]

@[simp] theorem Sys.runHook_exited : (s.runHook env call joiner st).exited = s.exited := by
  obtain ⟨hooks, n, he⟩ := s.runHook_eq env call joiner st
  rw [he]

@[simp] theorem Sys.runHook_stopCalls : (s.runHook env call joiner st).stopCalls = s.stopCalls := by
  obtain ⟨hooks, n, he⟩ := s.runHook_eq env call joiner st
  rw [he]

end

/-- A sweep changes the hook threads and the record of the janitor's calls. -/
theorem Swept.eq (h : Swept env s s') : ∃ hooks n calls,
    s' = { s with hooks := hooks, nHooks := n, hookCalls := calls } ∧
      calls.filter (fun x => x.gen.isSome) = s.hookCalls.filter fun x => x.gen.isSome := by
  cases h with
  | quiet => exact ⟨_, _, _, rfl, rfl⟩
  | hook st =>
    obtain ⟨hooks, n, he⟩ := s.runHook_eq env ⟨.down, some .janitor, none⟩ none st
    exact ⟨hooks, n, _, he, by simp⟩

theorem sweepStep_eq {sw : Sweep} {ans : Answer} {next : Option Sweep}
    (h : sweepStep env s sw ans = some (s', next)) : ∃ hooks n calls,
      s' = { s with hooks := hooks, nHooks := n, hookCalls := calls } := by
  obtain ⟨hooks, n, calls, he, -⟩ := (sweepStep_swept h).eq
  exact ⟨hooks, n, calls, he⟩

/-! ## Threads of connections -/

/-- A connection thread that moves has not returned. -/
theorem ConnMove.pc_ne_closed {c : ConnId} {ans : Answer} (h : ConnMove env s c ans s') :
    (s.conns c).pc ≠ .closed := by
  cases h with
  | refill hpc => rcases hpc with hpc | hpc <;> simp [hpc]
  | gate hpc | reject hpc | helloFail hpc | helloDrop hpc | helloRefuse hpc | helloAccept hpc
  | refused hpc | busy _ hpc | accept _ hpc | takeover _ hpc | kickWrite hpc | kickSkip hpc
  | kickShutdown hpc | helloSnap _ hpc | helloWrite hpc | loopFail hpc | loopEnd hpc
  | loopBlank hpc | loopError hpc | loopStart hpc | loopStatus hpc | loopStop hpc
  | startRunning _ hpc | startFailed _ hpc | spawn _ hpc | spawnMonitor hpc | upHook hpc
  | statusSnap _ hpc | reply hpc | stopIdle _ hpc | stopMark _ hpc | stopSeen _ hpc
  | stopAgain _ hpc | stopHook hpc | endedKicked hpc | endedOwner hpc | giveUp _ hpc
  | giveUpOther _ hpc | sweep hpc | swept hpc | join hpc | exit hpc => simp [hpc]

/-- A connection moves no thread but its own, and takes no id, lease or stream away
from another. -/
theorem ConnMove.of_ne {c d : ConnId} {ans : Answer} (h : ConnMove env s c ans s') (hd : d ≠ c) :
    (s'.conns d).pc = (s.conns d).pc ∧ (s'.conns d).id = (s.conns d).id ∧
      (s'.conns d).granted = (s.conns d).granted := by
  cases h with
  | sweep hpc hsw | swept hpc hsw =>
    obtain ⟨hooks, n, calls, rfl⟩ := sweepStep_eq hsw
    simp [hd]
  | @takeover ans old | kickWrite hpc | kickShutdown hpc =>
    simp only [Sys.setPc, Sys.setOwner, Sys.kick, Sys.write, Sys.modConn, update_apply, if_neg hd]
    split <;> simp_all
  | _ => simp [hd]

/-- No grant is taken off the record. -/
theorem ConnMove.granted_mono {c d : ConnId} {ans : Answer} (h : ConnMove env s c ans s')
    (hg : (s.conns d).granted = true) : (s'.conns d).granted = true := by
  by_cases hd : d = c
  · subst hd
    cases h with
    | sweep hpc hsw | swept hpc hsw =>
      obtain ⟨hooks, n, calls, rfl⟩ := sweepStep_eq hsw
      simpa using hg
    | kickWrite hpc | kickShutdown hpc =>
      simp only [Sys.setPc, Sys.write, Sys.modConn, Function.update_self, update_apply]
      split <;> simp_all
    | _ => simp [hg]
  · rw [(h.of_ne hd).2.2]
    exact hg

theorem ConnMove.nConns_eq {c : ConnId} {ans : Answer} (h : ConnMove env s c ans s') :
    s'.nConns = s.nConns := by
  cases h with
  | sweep hpc hsw | swept hpc hsw =>
    obtain ⟨hooks, n, calls, rfl⟩ := sweepStep_eq hsw
    rfl
  | upHook | stopHook => simp
  | _ => rfl

/-- A monitor writes to a stream, and changes nothing else of a connection. -/
theorem MonMove.conns_eq {g : Gen} {ans : Answer} (h : MonMove env s g ans s') (d : ConnId) :
    ∃ out, s'.conns d = { s.conns d with out := out } := by
  cases h with
  | sweep hpc hsw | swept hpc hsw =>
    obtain ⟨hooks, n, calls, rfl⟩ := sweepStep_eq hsw
    exact ⟨_, rfl⟩
  | downHook hpc =>
    simp only [Sys.setMonPc, Sys.modMon, Sys.runHook_conns]
    exact ⟨_, rfl⟩
  | @pushWrite _ info c hpc =>
    by_cases hd : d = c
    · subst hd
      simp only [Sys.monPushWrite, Sys.write, Sys.modConn, Sys.setMonPc, Sys.modMon,
        Function.update_self]
      exact ⟨_, rfl⟩
    · simp only [Sys.monPushWrite, Sys.write, Sys.modConn, Sys.setMonPc, Sys.modMon,
        Function.update_of_ne hd]
      exact ⟨_, rfl⟩
  | _ => exact ⟨_, rfl⟩

theorem MonMove.nConns_eq {g : Gen} {ans : Answer} (h : MonMove env s g ans s') :
    s'.nConns = s.nConns := by
  cases h with
  | sweep hpc hsw | swept hpc hsw =>
    obtain ⟨hooks, n, calls, rfl⟩ := sweepStep_eq hsw
    rfl
  | downHook hpc => simp
  | _ => rfl

theorem MonMove.timer_eq {g : Gen} {ans : Answer} (h : MonMove env s g ans s') :
    s'.timer = s.timer := by
  cases h with
  | sweep hpc hsw | swept hpc hsw =>
    obtain ⟨hooks, n, calls, rfl⟩ := sweepStep_eq hsw
    rfl
  | downHook hpc => simp
  | _ => rfl

theorem MonMove.exited_eq {g : Gen} {ans : Answer} (h : MonMove env s g ans s') :
    s'.exited = s.exited := by
  cases h with
  | sweep hpc hsw | swept hpc hsw =>
    obtain ⟨hooks, n, calls, rfl⟩ := sweepStep_eq hsw
    rfl
  | downHook hpc => simp
  | _ => rfl

/-- A monitor changes the core entry in its `Stopped` transition only. -/
theorem MonMove.core_eq {g : Gen} {ans : Answer} (h : MonMove env s g ans s') :
    s'.core = s.core ∨ ∃ info, (s.monitors g).pc = .exitLock info := by
  cases h with
  | sweep hpc hsw | swept hpc hsw =>
    obtain ⟨hooks, n, calls, rfl⟩ := sweepStep_eq hsw
    exact .inl rfl
  | downHook hpc => exact .inl (by simp)
  | exit hlock hpc => exact .inr ⟨_, hpc⟩
  | _ => exact .inl rfl

/-- What `accept` makes of the connections: a new one, about to be checked. -/
def Opened (s s' : Sys) : Prop :=
  ∃ uid, s'.conns = update s.conns s.nConns { pc := .auth, uid := uid } ∧
    s'.nConns = s.nConns + 1

/-- The rest of the process opens connections, and moves bytes on their streams. -/
theorem OtherMove.conns_eq {a : Action} (h : OtherMove env s a s') :
    Opened s s' ∨ s'.nConns = s.nConns ∧
      ∀ d, ∃ sock closed, s'.conns d = { s.conns d with sock := sock, closed := closed } := by
  cases h with
  | main _ hsw | serve _ hsw =>
    obtain ⟨hooks, n, calls, rfl⟩ := sweepStep_eq hsw
    exact .inr ⟨rfl, fun d => ⟨_, _, rfl⟩⟩
  | @accept uid hmain => exact .inl ⟨uid, rfl, rfl⟩
  | @arrive c | @hangup c =>
    refine .inr ⟨rfl, fun d => ?_⟩
    by_cases hd : d = c
    · subst hd
      simp only [Sys.modConn, Function.update_self]
      exact ⟨_, _, rfl⟩
    · simp only [Sys.modConn, Function.update_of_ne hd]
      exact ⟨_, _, rfl⟩
  | _ => exact .inr ⟨rfl, fun d => ⟨_, _, rfl⟩⟩

theorem OtherMove.core_eq {a : Action} (h : OtherMove env s a s') : s'.core = s.core := by
  cases h with
  | main _ hsw | serve _ hsw =>
    obtain ⟨hooks, n, calls, rfl⟩ := sweepStep_eq hsw
    rfl
  | _ => rfl

/-- The timer stays where it is, goes on, or finds no owner and is about to exit. -/
theorem OtherMove.timer_cases {a : Action} (h : OtherMove env s a s') :
    s'.timer = s.timer ∨ s'.timer ≠ .exiting ∨
      ∃ due, a = .timer ∧ s.timer = .sleeping due ∧ s.owner = none := by
  cases h with
  | main _ hsw =>
    obtain ⟨hooks, n, calls, rfl⟩ := sweepStep_eq hsw
    exact .inl rfl
  | serve => exact .inr (.inl (by simp))
  | timerOwner => exact .inr (.inl (by simp))
  | timerNoOwner _ htimer _ howner => exact .inr (.inr ⟨_, rfl, htimer, howner⟩)
  | _ => exact .inl rfl

theorem OtherMove.exited_cases {a : Action} (h : OtherMove env s a s') :
    s'.exited = s.exited ∨ s.timer = .exiting := by
  cases h with
  | main _ hsw | serve _ hsw =>
    obtain ⟨hooks, n, calls, rfl⟩ := sweepStep_eq hsw
    exact .inl rfl
  | timerExit htimer => exact .inr htimer
  | _ => exact .inl rfl

/-- **Thread positions.** A property of every connection thread's position that a new
thread has, and that a moving thread keeps, is kept by every step. -/
theorem Move.forall_pc {Q : ConnId → ConnPc → Prop} {a : Action} (h : Move env s a s')
    (hauth : Q s.nConns .auth)
    (hown : ∀ {c ans}, ConnMove env s c ans s' → a = .conn c ans → Q c (s'.conns c).pc)
    (hQ : ∀ c, Q c (s.conns c).pc) (d : ConnId) : Q d (s'.conns d).pc := by
  cases h with
  | @conn c ans _ h =>
    by_cases hdc : d = c
    · exact hdc ▸ hown h rfl
    · rw [(h.of_ne hdc).1]
      exact hQ d
  | @monitor g ans _ h =>
    obtain ⟨out, he⟩ := h.conns_eq d
    rw [he]
    exact hQ d
  | other h =>
    rcases h.conns_eq with ⟨uid, hc, -⟩ | ⟨-, hc⟩
    · rw [hc]
      by_cases hd : d = s.nConns
      · rw [hd, Function.update_self]
        exact hauth
      · rw [Function.update_of_ne hd]
        exact hQ d
    · obtain ⟨sock, closed, he⟩ := hc d
      rw [he]
      exact hQ d

/-- A connection that was granted the lease stays on record as such. -/
theorem Move.granted_mono {a : Action} (h : Move env s a s') {d : ConnId} (hd : d ≠ s.nConns)
    (hg : (s.conns d).granted = true) : (s'.conns d).granted = true := by
  cases h with
  | conn h => exact h.granted_mono hg
  | monitor h =>
    obtain ⟨out, he⟩ := h.conns_eq d
    rw [he]
    exact hg
  | other h =>
    rcases h.conns_eq with ⟨uid, hc, -⟩ | ⟨-, hc⟩
    · rw [hc, Function.update_of_ne hd]
      exact hg
    · obtain ⟨sock, closed, he⟩ := hc d
      rw [he]
      exact hg

/-- The thread of an accepted connection moves itself, or stays where it is. -/
theorem Move.own_or_keep {a : Action} (h : Move env s a s') {c : ConnId} (hc : c < s.nConns) :
    (∃ ans, a = .conn c ans ∧ ConnMove env s c ans s') ∨
      (s'.conns c).pc = (s.conns c).pc := by
  cases h with
  | @conn d ans _ h =>
    by_cases hcd : c = d
    · subst hcd
      exact .inl ⟨ans, rfl, h⟩
    · exact .inr (h.of_ne hcd).1
  | monitor h =>
    obtain ⟨out, he⟩ := h.conns_eq c
    exact .inr (by rw [he])
  | other h =>
    rcases h.conns_eq with ⟨uid, hn, -⟩ | ⟨-, hn⟩
    · exact .inr (by rw [hn, Function.update_of_ne (Nat.ne_of_lt hc)])
    · obtain ⟨sock, closed, he⟩ := hn c
      exact .inr (by rw [he])

/-- Connections are accepted and not forgotten. -/
theorem Move.nConns_le {a : Action} (h : Move env s a s') : s.nConns ≤ s'.nConns := by
  cases h with
  | conn h => exact h.nConns_eq.ge
  | monitor h => exact h.nConns_eq.ge
  | other h =>
    rcases h.conns_eq with ⟨uid, -, hn⟩ | ⟨hn, -⟩
    · rw [hn]
      exact Nat.le_succ _
    · exact hn.ge

/-- Connections that were never accepted have no thread and no lease. -/
structure Accepted (s : Sys) : Prop where
  closed : ∀ c, s.nConns ≤ c → (s.conns c).pc = .closed
  ungranted : ∀ c, s.nConns ≤ c → (s.conns c).granted = false

theorem Accepted.of_conn_eq (hA : Accepted s) (hn : s'.nConns = s.nConns)
    (hd : ∀ d, s.nConns ≤ d → (s'.conns d).pc = (s.conns d).pc ∧
      (s'.conns d).granted = (s.conns d).granted) : Accepted s' where
  closed d h := by
    rw [hn] at h
    rw [(hd d h).1]
    exact hA.closed d h
  ungranted d h := by
    rw [hn] at h
    rw [(hd d h).2]
    exact hA.ungranted d h

theorem Accepted.step (hA : Accepted s) {a : Action} (h : Move env s a s') : Accepted s' := by
  cases h with
  | @conn c ans _ h =>
    refine hA.of_conn_eq h.nConns_eq fun d hd => ?_
    have hdc : d ≠ c := by
      rintro rfl
      exact h.pc_ne_closed (hA.closed d hd)
    obtain ⟨hpc, -, hg⟩ := h.of_ne hdc
    exact ⟨hpc, hg⟩
  | @monitor g ans _ h =>
    refine hA.of_conn_eq h.nConns_eq fun d _ => ?_
    obtain ⟨out, he⟩ := h.conns_eq d
    rw [he]
    exact ⟨rfl, rfl⟩
  | other h =>
    rcases h.conns_eq with ⟨uid, hc, hn⟩ | ⟨hn, hc⟩
    · have hne : ∀ d, s'.nConns ≤ d → s'.conns d = s.conns d := by
        intro d hd
        rw [hn] at hd
        rw [hc, Function.update_of_ne (Nat.ne_of_gt hd)]
      rw [hn] at hne
      constructor
      · intro d hd
        rw [hn] at hd
        rw [hne d hd]
        exact hA.closed d (Nat.le_of_succ_le hd)
      · intro d hd
        rw [hn] at hd
        rw [hne d hd]
        exact hA.ungranted d (Nat.le_of_succ_le hd)
    · refine hA.of_conn_eq hn fun d _ => ?_
      obtain ⟨sock, closed, he⟩ := hc d
      rw [he]
      exact ⟨rfl, rfl⟩

/-- A property of all threads is one of the accepted connections' threads. -/
theorem Accepted.forall_pc (hA : Accepted s) {Q : ConnPc → Prop} (hclosed : Q .closed)
    (hQ : ∀ c < s.nConns, Q (s.conns c).pc) (c : ConnId) : Q (s.conns c).pc := by
  by_cases hc : c < s.nConns
  · exact hQ c hc
  · rw [hA.closed c (Nat.le_of_not_lt hc)]
    exact hclosed

theorem Accepted.of_reachable (h : (supervisor env).Reachable s) : Accepted s :=
  h.invariant ⟨fun _ _ => rfl, fun _ _ => rfl⟩ fun _ hA _ hs => hA.step (step_move hs).2

/-! ## Threads of monitors -/

/-- A connection creates monitors, and leaves those there are alone. -/
theorem ConnMove.monitors_cases {c : ConnId} {ans : Answer} (h : ConnMove env s c ans s') (g : Gen) :
    s'.monitors g = s.monitors g ∨
      (s.conns c).pc = .spawnMonitor g ∧
        s'.monitors g = ⟨.tryWait, (s.children g).pid, none, false⟩ := by
  cases h with
  | sweep hpc hsw | swept hpc hsw =>
    obtain ⟨hooks, n, calls, rfl⟩ := sweepStep_eq hsw
    exact .inl rfl
  | @spawnMonitor _ k hpc =>
    by_cases hk : g = k
    · subst hk
      exact .inr ⟨hpc, by simp⟩
    · exact .inl (by simp [hk])
  | upHook | stopHook => exact .inl (by simp)
  | _ => exact .inl rfl

theorem MonMove.of_ne {g k : Gen} {ans : Answer} (h : MonMove env s g ans s') (hk : k ≠ g) :
    s'.monitors k = s.monitors k := by
  cases h with
  | sweep hpc hsw | swept hpc hsw =>
    obtain ⟨hooks, n, calls, rfl⟩ := sweepStep_eq hsw
    simp [hk]
  | _ => simp [hk]

theorem OtherMove.monitors_eq {a : Action} (h : OtherMove env s a s') :
    s'.monitors = s.monitors := by
  cases h with
  | main _ hsw | serve _ hsw =>
    obtain ⟨hooks, n, calls, rfl⟩ := sweepStep_eq hsw
    rfl
  | _ => rfl

/-- **Monitor positions.** A property of every monitor's position that a new monitor
has, and that a moving monitor keeps, is kept by every step. -/
theorem Move.forall_mon {Q : Gen → MonPc → Prop} {a : Action} (h : Move env s a s')
    (hnew : ∀ g, Q g .tryWait)
    (hown : ∀ {g ans}, MonMove env s g ans s' → a = .monitor g ans → Q g (s'.monitors g).pc)
    (hQ : ∀ g, Q g (s.monitors g).pc) (k : Gen) : Q k (s'.monitors k).pc := by
  cases h with
  | conn h =>
    rcases h.monitors_cases k with he | ⟨-, he⟩
    · exact he ▸ hQ k
    · exact he ▸ hnew k
  | @monitor g ans _ h =>
    by_cases hk : k = g
    · exact hk ▸ hown h rfl
    · exact h.of_ne hk ▸ hQ k
  | other h => exact h.monitors_eq ▸ hQ k

/-! ## The owner slot and the core entry -/

/-- A connection changes the owner slot when it is granted the lease or gives it up. -/
theorem ConnMove.owner_cases {c : ConnId} {ans : Answer} (h : ConnMove env s c ans s') :
    s'.owner = s.owner ∨
      (∃ t, (s.conns c).pc = .lease t ∧ (s.owner = none ∨ t = true) ∧
        s'.owner = some ⟨(s.conns c).id, c⟩ ∧ (s'.conns c).out = (s.conns c).out ∧
        ((s'.conns c).pc = .helloSnap ∨ ∃ old, (s'.conns c).pc = .kickWrite old)) ∨
      (s.conns c).pc = .giveUp ∧ (∃ o, s.owner = some o ∧ o.id = (s.conns c).id) ∧
        s'.owner = none := by
  cases h with
  | sweep hpc hsw | swept hpc hsw =>
    obtain ⟨hooks, n, calls, rfl⟩ := sweepStep_eq hsw
    exact .inl rfl
  | upHook | stopHook => exact .inl (by simp)
  | @accept _ t hlock hpc howner =>
    exact .inr (.inl ⟨t, hpc, .inl howner, by simp, by simp, .inl (by simp)⟩)
  | @takeover _ old hlock hpc howner =>
    refine .inr (.inl ⟨true, hpc, .inr rfl, ?_, ?_, .inr ⟨old.conn, by simp⟩⟩)
    · by_cases ho : c = old.conn <;> simp [ho]
    · by_cases ho : c = old.conn <;> simp [ho]
  | @giveUp _ o hlock hpc howner hid => exact .inr (.inr ⟨hpc, ⟨o, howner, hid⟩, rfl⟩)
  | _ => exact .inl rfl

/-- A connection changes the core entry when it spawns the core or marks it. -/
theorem ConnMove.core_cases {c : ConnId} {ans : Answer} (h : ConnMove env s c ans s') :
    (s'.core = s.core ∧ s'.nGen = s.nGen ∧ s'.children = s.children) ∨
      ((s.conns c).pc = .startLock ∧ s.core = .stopped ∧
        ∃ pid port, ans = .spawn (.child pid port) ∧ s'.core = .running ⟨pid, port, false⟩ ∧
          s'.nGen = s.nGen + 1) ∨
      ∃ r run, (s.conns c).pc = .stopLock r ∧ s.core = .running run ∧
        s'.core = .running { run with stopRequested := true } ∧ s'.nGen = s.nGen ∧
        (s'.conns c).pc = .stopWait r (s.nGen - 1) ∧ (s'.conns c).out = (s.conns c).out := by
  cases h with
  | sweep hpc hsw | swept hpc hsw =>
    obtain ⟨hooks, n, calls, rfl⟩ := sweepStep_eq hsw
    exact .inl ⟨rfl, rfl, rfl⟩
  | upHook | stopHook => exact .inl (by simp)
  | @spawn pid port hlock hpc hcore hpid =>
    exact .inr (.inl ⟨hpc, hcore, pid, port, rfl, rfl, rfl⟩)
  | @stopMark _ r run hlock hpc hcore =>
    exact .inr (.inr ⟨r, run, hpc, hcore, rfl, rfl, by simp, by simp⟩)
  | _ => exact .inl ⟨rfl, rfl, rfl⟩

/-- After the move of a monitor the core runs only if it ran before. -/
theorem MonMove.core_running {g : Gen} {ans : Answer} (h : MonMove env s g ans s') {run : Running}
    (hcore : s'.core = .running run) : s.core = .running run := by
  cases h with
  | sweep hpc hsw | swept hpc hsw =>
    obtain ⟨hooks, n, calls, rfl⟩ := sweepStep_eq hsw
    exact hcore
  | downHook hpc => simpa using hcore
  | exit => cases hcore
  | _ => exact hcore

theorem MonMove.owner_eq {g : Gen} {ans : Answer} (h : MonMove env s g ans s') :
    s'.owner = s.owner := by
  cases h with
  | sweep hpc hsw | swept hpc hsw =>
    obtain ⟨hooks, n, calls, rfl⟩ := sweepStep_eq hsw
    rfl
  | downHook hpc => simp
  | _ => rfl

theorem MonMove.nGen_eq {g : Gen} {ans : Answer} (h : MonMove env s g ans s') :
    s'.nGen = s.nGen := by
  cases h with
  | sweep hpc hsw | swept hpc hsw =>
    obtain ⟨hooks, n, calls, rfl⟩ := sweepStep_eq hsw
    rfl
  | downHook hpc => simp
  | _ => rfl

/-- A monitor reaps its child on the way to the `Stopped` transition. -/
theorem MonMove.reap_cases {g : Gen} {ans : Answer} (h : MonMove env s g ans s') :
    s'.children g = s.children g ∨ ∃ info, (s'.monitors g).pc = .exitLock info := by
  cases h with
  | sweep hpc hsw | swept hpc hsw =>
    obtain ⟨hooks, n, calls, rfl⟩ := sweepStep_eq hsw
    exact .inl rfl
  | downHook hpc => exact .inl (by simp)
  | @reap info => exact .inr ⟨info, by simp⟩
  | _ => exact .inl rfl

/-- A monitor reaps no child but its own. -/
theorem MonMove.children_of_ne {g k : Gen} {ans : Answer} (h : MonMove env s g ans s')
    (hk : k ≠ g) : s'.children k = s.children k := by
  cases h with
  | sweep hpc hsw | swept hpc hsw =>
    obtain ⟨hooks, n, calls, rfl⟩ := sweepStep_eq hsw
    rfl
  | downHook hpc => simp
  | reap => simp [hk]
  | _ => rfl

theorem OtherMove.owner_eq {a : Action} (h : OtherMove env s a s') : s'.owner = s.owner := by
  cases h with
  | main _ hsw | serve _ hsw =>
    obtain ⟨hooks, n, calls, rfl⟩ := sweepStep_eq hsw
    rfl
  | _ => rfl

theorem OtherMove.nGen_eq {a : Action} (h : OtherMove env s a s') : s'.nGen = s.nGen := by
  cases h with
  | main _ hsw | serve _ hsw =>
    obtain ⟨hooks, n, calls, rfl⟩ := sweepStep_eq hsw
    rfl
  | _ => rfl

/-- The environment does nothing to children but end them. -/
theorem OtherMove.dead_of_dead {a : Action} (h : OtherMove env s a s') {g : Gen} {info : ExitInfo}
    (hdead : (s.children g).life = .dead info) : (s'.children g).life = .dead info := by
  cases h with
  | main _ hsw | serve _ hsw =>
    obtain ⟨hooks, n, calls, rfl⟩ := sweepStep_eq hsw
    exact hdead
  | @die k info' hlife =>
    have hk : g ≠ k := by
      rintro rfl
      rw [hlife] at hdead
      cases hdead
    simpa [hk] using hdead
  | _ => exact hdead

/-! ## Why `stop` is called -/

/-- `stop` is called for a command or for a disconnect. -/
def StopReasons (s : Sys) : Prop :=
  ∀ c r, (s.conns c).pc = .stopLock r → r = .requested ∨ r = .ownerDrop

theorem ConnMove.stopReason {c : ConnId} {ans : Answer} (h : ConnMove env s c ans s')
    {r : HookReason} (hpc' : (s'.conns c).pc = .stopLock r) : r = .requested ∨ r = .ownerDrop := by
  cases h with
  | sweep hpc hsw | swept hpc hsw =>
    obtain ⟨hooks, n, calls, rfl⟩ := sweepStep_eq hsw
    simp at hpc'
  | @stopIdle _ r | @stopHook _ r => cases r <;> simp [Sys.afterStopPc] at hpc'
  | _ => simp_all

theorem stopReasons_of_reachable (h : (supervisor env).Reachable s) : StopReasons s := by
  refine h.invariant (fun _ _ he => by cases he) fun _ hR _ hs c => ?_
  refine (step_move hs).2.forall_pc (Q := fun _ pc =>
    ∀ r, pc = .stopLock r → r = .requested ∨ r = .ownerDrop) ?_ ?_ hR c
  · exact fun _ he => by cases he
  · exact fun h _ _ he => h.stopReason he

end EasyTierMac.Supervisor
