import EasyTierMac.Bridge.Moves

/-!
# The driver as seen from outside

What a step of the client does to the four things that others see of its driver: the events it
has sent, the flag behind `is_connected`, the length of the next pause, and the time until which
it pauses. `announce` reads a stream of events as an automaton with one bit, whether a session
is announced; `Move.reads` says that the bit follows `run_session`.
-/

namespace EasyTierMac.Bridge

variable {env : ClientEnv} {s s' : Client} {a : Action}

section

variable (reqs : List Request) (s : Client)

@[simp] theorem Client.dropAll_events : (Client.dropAll reqs s).events = s.events := by
  obtain ⟨callers, he⟩ := Client.dropAll_eq reqs s
  rw [he]

@[simp] theorem Client.dropAll_connected : (Client.dropAll reqs s).connected = s.connected := by
  obtain ⟨callers, he⟩ := Client.dropAll_eq reqs s
  rw [he]

@[simp] theorem Client.dropAll_backoff : (Client.dropAll reqs s).backoff = s.backoff := by
  obtain ⟨callers, he⟩ := Client.dropAll_eq reqs s
  rw [he]

@[simp] theorem Client.dropAll_now : (Client.dropAll reqs s).now = s.now := by
  obtain ⟨callers, he⟩ := Client.dropAll_eq reqs s
  rw [he]

end

/-! ## Events -/

/-- The announced state after an event; `none` where the event cannot come. -/
def announce (up : Bool) : SupervisorEvent → Option Bool
  | .connected _ _ _ => if up then none else some true
  | .disconnected => if up then some false else none
  | .coreStarted _ _ | .coreStopped _ | .coreExited _ _ | .kicked => if up then some true else none
  | .busy _ | .error _ _ => some up

/-- Read a stream of events from its beginning: nothing is announced. -/
def announced (events : List SupervisorEvent) : Option Bool := events.foldlM announce false

/-- The events of a step, read from the state before it, lead to the state after it. -/
def Reads (s s' : Client) : Prop :=
  ∃ evs, s'.events = s.events ++ evs ∧
    evs.foldlM announce s.driver.inSession = some s'.driver.inSession

theorem reads_silent (he : s'.events = s.events) (hd : s'.driver.inSession = s.driver.inSession) :
    Reads s s' := by
  refine ⟨[], ?_, ?_⟩
  · rw [he, List.append_nil]
  · rw [hd]
    rfl

theorem reads_one {ev : SupervisorEvent} (he : s'.events = s.events ++ [ev])
    (hev : announce s.driver.inSession ev = some s'.driver.inSession) : Reads s s' := by
  refine ⟨[ev], he, ?_⟩
  show (announce s.driver.inSession ev).bind (fun up => some up) = _
  rw [hev]
  rfl

/-- The end of a session is announced. -/
theorem reads_end (hd : s.driver.inSession = true) (hd' : s'.driver.inSession = false)
    (he : s'.events = s.events ++ [.disconnected]) : Reads s s' := by
  refine reads_one he ?_
  rw [hd, hd']
  rfl

/-- What `dispatch_event` sends belongs to a session. -/
theorem announce_dispatchEvent (ev : Event) (pending : Option Request) :
    (dispatchEvent ev pending).events.foldlM announce true = some true := by
  cases ev with
  | error code msg => cases pending <;> rfl
  | _ => rfl

theorem dispatch_events (s : Client) (ev : Event) :
    (s.dispatch ev).events = s.events ++ (dispatchEvent ev s.pending).events := by
  unfold Client.dispatch Client.complete
  dsimp only
  split <;> rfl

/-- `dispatch_event` leaves the driver as it is, apart from its session. -/
theorem dispatch_driver (s : Client) (ev : Event) :
    (s.dispatch ev).driver = s.driver ∧ (s.dispatch ev).connected = s.connected ∧
      (s.dispatch ev).backoff = s.backoff ∧ (s.dispatch ev).now = s.now := by
  obtain ⟨callers, pending, events, log, he, -⟩ := Client.dispatch_eq s ev
  rw [he]
  exact ⟨rfl, rfl, rfl, rfl⟩

theorem reads_sessionLine (hd : s.driver = .session) (l : List UInt8) :
    Reads s (s.sessionLine env l) := by
  have hin : s.driver.inSession = true := by
    rw [hd]
    rfl
  obtain ⟨log, he | he | ⟨ev, -, he⟩⟩ := sessionLine_cases env s l
  · rw [he]
    exact reads_end hin rfl (by simp)
  · rw [he]
    exact reads_silent rfl rfl
  · rw [he]
    refine ⟨(dispatchEvent ev s.pending).events, dispatch_events _ ev, ?_⟩
    have hdriver := (dispatch_driver { s with log := log } ev).1
    rw [hdriver, hin]
    exact announce_dispatchEvent ev s.pending

theorem reads_helloLine (hd : s.driver = .readHello) (l : List UInt8) :
    Reads s (s.helloLine env l) := by
  have hout : s.driver.inSession = false := by
    rw [hd]
    rfl
  rcases helloLine_cases env s l with he | ⟨version, core, rpcPort, he⟩ | ⟨owner, he⟩ |
    ⟨code, msg, he⟩
  · rw [he]
    exact reads_silent rfl hout.symm
  · rw [he]
    refine reads_one rfl ?_
    rw [hout]
    rfl
  · rw [he]
    refine reads_one rfl ?_
    rw [hout]
    rfl
  · rw [he]
    refine reads_one rfl ?_
    rw [hout]
    rfl

theorem inSession_eq_false (hd : s.driver ≠ .session) (hw : ∀ req, s.driver ≠ .writing req) :
    s.driver.inSession = false := by
  cases hpc : s.driver with
  | session => exact absurd hpc hd
  | writing req => exact absurd hpc (hw req)
  | _ => rfl

/-- **The events of a step.** -/
theorem Move.reads (h : Move env s a s') : Reads s s' := by
  cases h with
  | call | refused | send | receive | lost | timeout | hold | fill | requestShutdown
  | requestTakeover | requestReconnect | arrive | hangup | tick | recvBusy =>
    exact reads_silent rfl rfl
  | connect hd | connectErr hd | hello hd | helloErr hd | helloReadErr hd | takeover hd
  | reconnect hd | elapse hd =>
    refine reads_silent rfl ?_
    rw [hd]
    rfl
  | @helloLine l st hd =>
    have hst : (s.setStream st).driver = .readHello := hd
    exact reads_helloLine (s := s.setStream st) hst l
  | @sessionLine l st hd =>
    have hst : (s.setStream st).driver = .session := hd
    exact reads_sessionLine (s := s.setStream st) hst l
  | sessionReadErr hd =>
    refine reads_end ?_ rfl (by simp)
    rw [hd]
    rfl
  | recv hd | wrote hd =>
    refine reads_silent rfl ?_
    rw [hd]
    rfl
  | writeErr hd =>
    refine reads_end ?_ rfl (by simp)
    rw [hd]
    rfl
  | shutdown _ hd hw =>
    refine reads_silent (by simp) ?_
    rw [inSession_eq_false hd hw]
    simp [DriverPc.inSession]
  | shutdownSession _ hd =>
    refine reads_end ?_ (by simp [DriverPc.inSession]) (by simp)
    rw [hd]
    rfl

/-! ## The flag -/

theorem helloLine_connected (hd : s.driver = .readHello) (hc : s.connected = s.driver.inSession)
    (l : List UInt8) : (s.helloLine env l).connected = (s.helloLine env l).driver.inSession := by
  have hoff : s.connected = false := by
    rw [hc, hd]
    rfl
  rcases helloLine_cases env s l with he | ⟨version, core, rpcPort, he⟩ | ⟨owner, he⟩ |
    ⟨code, msg, he⟩
  · rw [he]
    exact hoff
  · rw [he]
    rfl
  · rw [he]
    exact hoff
  · rw [he]
    exact hoff

theorem sessionLine_connected (hc : s.connected = s.driver.inSession) (l : List UInt8) :
    (s.sessionLine env l).connected = (s.sessionLine env l).driver.inSession := by
  obtain ⟨log, he | he | ⟨ev, -, he⟩⟩ := sessionLine_cases env s l
  · rw [he]
    rfl
  · rw [he]
    exact hc
  · rw [he]
    obtain ⟨hdriver, hconnected, -⟩ := dispatch_driver { s with log := log } ev
    rw [hdriver, hconnected]
    exact hc

/-- **The flag is set with the session and cleared with it.** -/
theorem Move.connected (h : Move env s a s') (hc : s.connected = s.driver.inSession) :
    s'.connected = s'.driver.inSession := by
  cases h with
  | call | refused | send | receive | lost | timeout | hold | fill | requestShutdown
  | requestTakeover | requestReconnect | arrive | hangup | tick | recvBusy => exact hc
  | connect hd | connectErr hd | hello hd | helloErr hd | helloReadErr hd | takeover hd
  | reconnect hd | elapse hd | recv hd | wrote hd =>
    rw [hd] at hc
    exact hc
  | @helloLine l st hd =>
    have hst : (s.setStream st).driver = .readHello := hd
    exact helloLine_connected (s := s.setStream st) hst hc l
  | @sessionLine l st =>
    exact sessionLine_connected (s := s.setStream st) hc l
  | sessionReadErr hd | writeErr hd => rfl
  | shutdown | shutdownSession => simp [DriverPc.inSession]

/-- A driver that has returned does nothing more. -/
theorem Move.stopped (h : Move env s a s') (hd : s.driver = .stopped) :
    s'.driver = .stopped ∧ s'.events = s.events := by
  cases h with
  | call | refused | send | receive | lost | timeout | requestShutdown | requestTakeover
  | requestReconnect | arrive | hangup | tick => exact ⟨hd, rfl⟩
  | hold hpc | fill hpc =>
    rw [hd] at hpc
    rcases hpc with hpc | hpc <;> cases hpc
  | connect hpc | connectErr hpc | hello hpc | helloErr hpc | helloReadErr hpc | takeover hpc
  | reconnect hpc | elapse hpc | recv hpc | recvBusy hpc | wrote hpc | helloLine hpc
  | sessionLine hpc | sessionReadErr hpc | writeErr hpc | shutdownSession _ hpc =>
    rw [hd] at hpc
    cases hpc
  | shutdown _ _ _ hpc => exact absurd hd hpc

/-! ## Pauses -/

def DriverPc.paused : DriverPc → Bool
  | .pause _ => true
  | _ => false

/-- What a step does to the pauses: nothing, or a pause begins or ends, or a session begins. -/
inductive Pauses (env : ClientEnv) (s s' : Client) : Prop
  | same (hdue : ∀ due, s'.driver = .pause due → s.driver = .pause due)
      (hno : s'.driver = .connect → s.driver.paused = false)
      (hin : s'.driver.inSession = true → s.driver.inSession = true)
      (hb : s'.backoff = s.backoff) (hnow : s.now ≤ s'.now)
  | begins (hp : s.driver.paused = false) (hd : s'.driver = .pause (s.now + s.backoff))
      (hb : s'.backoff = s.backoff) (hnow : s'.now = s.now)
  | ends (hp : s.driver.paused = true) (hd : s'.driver = .connect)
      (hb : s'.backoff = min (s.backoff * 2) env.config.maxBackoff)
  | session (hp : s.driver.paused = false) (hd : s'.driver = .session)
      (hb : s'.backoff = env.config.initialBackoff)

/-- The driver stays where it is. -/
theorem pauses_still (hd : s'.driver = s.driver) (hb : s'.backoff = s.backoff)
    (hnow : s.now ≤ s'.now) : Pauses env s s' := by
  refine .same (fun due hdue => ?_) (fun hc => ?_) (fun hin => ?_) hb hnow
  · rw [← hd]
    exact hdue
  · rw [← hd, hc]
    rfl
  · rw [← hd]
    exact hin

/-- The driver goes on, and neither pauses nor begins a session. -/
theorem pauses_on (hdue : ∀ due, s'.driver ≠ .pause due)
    (hno : s'.driver = .connect → s.driver.paused = false)
    (hin : s'.driver.inSession = true → s.driver.inSession = true) (hb : s'.backoff = s.backoff)
    (hnow : s'.now = s.now) : Pauses env s s' :=
  .same (fun due h => absurd h (hdue due)) hno hin hb (Nat.le_of_eq hnow.symm)

theorem helloLine_pauses (hd : s.driver = .readHello) (l : List UInt8) :
    Pauses env s (s.helloLine env l) := by
  have hp : s.driver.paused = false := by
    rw [hd]
    rfl
  rcases helloLine_cases env s l with he | ⟨version, core, rpcPort, he⟩ | ⟨owner, he⟩ |
    ⟨code, msg, he⟩
  · rw [he]
    exact .begins hp rfl rfl rfl
  · rw [he]
    exact .session hp rfl rfl
  · rw [he]
    exact pauses_on (fun due hdue => by cases hdue) (fun hc => by cases hc) (fun hin => by cases hin)
      rfl rfl
  · rw [he]
    exact .begins hp rfl rfl rfl

theorem sessionLine_pauses (hd : s.driver = .session) (l : List UInt8) :
    Pauses env s (s.sessionLine env l) := by
  have hp : s.driver.paused = false := by
    rw [hd]
    rfl
  obtain ⟨log, he | he | ⟨ev, -, he⟩⟩ := sessionLine_cases env s l
  · rw [he]
    exact .begins hp (by simp) (by simp) (by simp)
  · rw [he]
    exact pauses_still rfl rfl (Nat.le_refl _)
  · obtain ⟨hdriver, -, hb, hnow⟩ := dispatch_driver { s with log := log } ev
    rw [he]
    exact pauses_still hdriver hb (Nat.le_of_eq hnow.symm)

/-- Taking bytes from the stream is no part of it. -/
theorem Pauses.of_setStream {st : Stream} (h : Pauses env (s.setStream st) s') : Pauses env s s' := by
  cases h with
  | same hdue hno hin hb hnow => exact .same hdue hno hin hb hnow
  | begins hp hd hb hnow => exact .begins hp hd hb hnow
  | ends hp hd hb => exact .ends hp hd hb
  | session hp hd hb => exact .session hp hd hb

/-- **The pauses of a step.** -/
theorem Move.pauses (h : Move env s a s') : Pauses env s s' := by
  cases h with
  | call | refused | send | receive | lost | timeout | hold | fill | requestShutdown
  | requestTakeover | requestReconnect | arrive | hangup | recvBusy =>
    exact pauses_still rfl rfl (Nat.le_refl _)
  | tick => exact pauses_still rfl rfl (Nat.le_add_right _ _)
  | connect hd | hello hd | takeover hd =>
    refine pauses_on (fun due hdue => by cases hdue) (fun _ => ?_) (fun hin => by cases hin) rfl rfl
    rw [hd]
    rfl
  | recv hd | wrote hd =>
    refine pauses_on (fun due hdue => by cases hdue) (fun hc => by cases hc) (fun _ => ?_) rfl rfl
    rw [hd]
    rfl
  | connectErr hd | helloErr hd | helloReadErr hd =>
    refine .begins ?_ rfl rfl rfl
    rw [hd]
    rfl
  | sessionReadErr hd | writeErr hd =>
    refine .begins ?_ (by simp) (by simp) (by simp)
    rw [hd]
    rfl
  | @helloLine l st hd =>
    have hst : (s.setStream st).driver = .readHello := hd
    exact (helloLine_pauses hst l).of_setStream
  | @sessionLine l st hd =>
    have hst : (s.setStream st).driver = .session := hd
    exact (sessionLine_pauses hst l).of_setStream
  | reconnect hd | elapse hd =>
    refine .ends ?_ rfl rfl
    rw [hd]
    rfl
  | shutdown | shutdownSession =>
    exact pauses_on (by simp) (by simp) (by simp [DriverPc.inSession]) (by simp) (by simp)

end EasyTierMac.Bridge
