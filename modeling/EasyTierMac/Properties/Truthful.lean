import EasyTierMac.Properties.Linearizable
import EasyTierMac.Properties.Replies

/-!
# What a caller is told was true during its call

A reply of the supervisor is made from the core state in one critical section and written later,
it waits in two sockets and in a oneshot channel, and meanwhile the core may exit and another
owner may start one. So what `start`, `stop` and `status` return is about the past. It is about
the time of the call all the same: `answers_true` says that the core was at the pid and port, or
was stopped, or had the status that the caller is told, in one of the states between the call and
its return. This rests on both ends of the socket: replies reach the request whose command line
they answer, and what a connection answers it saw while it processed that line.
-/

namespace EasyTierMac.Wire

open Supervisor (Sys CoreView Started Accepted Commanded Performs)
open Bridge (Client ReqId Request Value CallerPc dispatchEvent)
open Transition (System)
open Object (Phase)

variable {env : Env} {s s' : Link}

/-! ## What a message says of the core -/

/-- A line of the supervisor, as an account of the core. -/
def Shows : Supervisor.Event → CoreView → Prop
  | .coreStarted pid rpcPort, v => v = some (pid, rpcPort)
  | .coreStopped _, v => v = none
  | .status core pid rpcPort, v =>
    core = v.state ∧ pid = v.map Prod.fst ∧ rpcPort = v.map Prod.snd
  | _, _ => True

/-- What `start`, `stop` or `status` returns, as an account of the core. -/
def Confirms : Value → CoreView → Prop
  | .start info, v => v = some (info.pid, info.rpcPort)
  | .stop, v => v = none
  | .status info, v =>
    info.core = mirrorCore v.state ∧ info.pid = v.map Prod.fst ∧ info.rpcPort = v.map Prod.snd

/-- The atomic step of a command sees what its reply says, or makes it so. -/
theorem shows_of_performs {version : String} {v v' : CoreView} {k : Supervisor.CoreCall}
    {ev : Supervisor.Event} (h : Performs version v k (.inr ev) v') : Shows ev v ∨ Shows ev v' := by
  cases h with
  | spawned => exact .inr rfl
  | status => exact .inl ⟨rfl, rfl, rfl⟩
  | running | alreadyStopped | stopped => exact .inl rfl
  | hello | spawnFailed | bad => exact .inl trivial

/-- A request is completed with what the line says. -/
theorem confirms_of_shows {ev : Supervisor.Event} {req req' : Request} {x : Value} {v : CoreView}
    (h : (dispatchEvent (mirror ev) (some req)).reply = some (req', .ok x)) (hv : Shows ev v) :
    Confirms x v := by
  cases ev with
  | coreStarted pid rpcPort =>
    obtain ⟨rfl, hr⟩ := Prod.mk.inj (Option.some.inj h)
    cases hkind : req.kind with
    | start =>
      rw [hkind] at hr
      cases hr
      exact hv
    | stop | status =>
      rw [hkind] at hr
      cases hr
  | coreStopped reason =>
    obtain ⟨rfl, hr⟩ := Prod.mk.inj (Option.some.inj h)
    cases hkind : req.kind with
    | stop =>
      rw [hkind] at hr
      cases hr
      exact hv
    | start | status =>
      rw [hkind] at hr
      cases hr
  | status core pid rpcPort =>
    obtain ⟨rfl, hr⟩ := Prod.mk.inj (Option.some.inj h)
    obtain ⟨hcore, hpid, hport⟩ := hv
    cases hkind : req.kind with
    | status =>
      rw [hkind] at hr
      cases hr
      exact ⟨by rw [hcore], hpid, hport⟩
    | start | stop =>
      rw [hkind] at hr
      cases hr
  | error code msg =>
    obtain ⟨rfl, hr⟩ := Prod.mk.inj (Option.some.inj h)
    cases hr
  | hello | coreExited | busy | kicked => cases h

/-! ## The states between a call and its return -/

/-- The call has been made and has not returned. -/
def Link.calling (s : Link) (id : ReqId) : Bool :=
  decide (id < s.client.nCalls) && match (s.client.callers id).pc with
    | .returned _ => false
    | _ => true

theorem Link.calling_of {id : ReqId} (hid : id < s.client.nCalls)
    (hpc : ∀ r, (s.client.callers id).pc ≠ .returned r) : s.calling id = true := by
  unfold Link.calling
  rw [decide_eq_true hid, Bool.true_and]
  split
  · next r hr => exact absurd hr (hpc r)
  · rfl

/-- What the core was in the states of a call, from the one after it was made to the one in
which it has returned. -/
def noteViews (env : Env) (s : Link) (a : Action) (seen : ReqId → List CoreView) :
    ReqId → List CoreView :=
  match step env s a with
  | some s' => fun id =>
    if s.calling id || s'.calling id then seen id ++ [s'.sup.core.view] else seen id
  | none => seen

/-- The two sides of the socket, with what the core was during each call. -/
def watched (env : Env) : System (Link × (ReqId → List CoreView)) Action :=
  (link env).recording (fun _ => []) (noteViews env)

/-! ## The invariant -/

/-- What is on its way to a caller, and what a caller has got, was so in a state of its call. -/
structure Truthful (s : Link) (seen : ReqId → List CoreView) : Prop where
  current : ∀ id, s.calling id = true → s.sup.core.view ∈ seen id
  /-- The answer that the supervisor is about to write. -/
  answer : s.client.hasSocket = true → ∀ req ev, s.handling = some req →
    (∀ r, (s.client.callers req.id).pc ≠ .returned r) → s.sup.phase s.conn = .answered ev →
      ∃ v ∈ seen req.id, Shows ev v
  written : ∀ w ∈ s.written, ∀ req, w.request = some req →
    (∀ r, (s.client.callers req.id).pc ≠ .returned r) → ∃ v ∈ seen req.id, Shows w.ev v
  returned : ∀ id x, (s.client.callers id).pc = .returned (.ok x) → ∃ v ∈ seen id, Confirms x v

variable {seen seen' : ReqId → List CoreView}

/-- What is seen in a step to `s'`. -/
structure Extends (s' : Link) (seen seen' : ReqId → List CoreView) : Prop where
  grows : ∀ {id : ReqId} {v : CoreView}, v ∈ seen id → v ∈ seen' id
  notes : ∀ id, s'.calling id = true → s'.sup.core.view ∈ seen' id

theorem extends_noteViews {a : Action} (h : step env s a = some s') (seen : ReqId → List CoreView) :
    Extends s' seen (noteViews env s a seen) := by
  have hnote : noteViews env s a seen = fun id =>
      if s.calling id || s'.calling id then seen id ++ [s'.sup.core.view] else seen id := by
    simp only [noteViews, h]
  rw [hnote]
  refine ⟨fun {id v} hv => ?_, fun id hid => ?_⟩
  · split
    · exact List.mem_append_left _ hv
    · exact hv
  · rw [hid, Bool.or_true, if_pos rfl]
    exact List.mem_append_right _ (List.mem_singleton_self _)

namespace Truthful

theorem init (env : Env) : Truthful (.init env) fun _ => [] where
  current id h := by
    have hid : decide (id < 0) = true := (Bool.and_eq_true_iff.mp h).1
    exact absurd (of_decide_eq_true hid) (Nat.not_lt_zero id)
  answer h := by cases h
  written w hw := by cases hw
  returned id x h := by cases h

/-- A call that has not returned had not returned before. -/
theorem open_of_stays (hstays : Stays s s') {id : ReqId}
    (h : ∀ r, (s'.client.callers id).pc ≠ .returned r) :
    ∀ r, (s.client.callers id).pc ≠ .returned r :=
  fun r hr => h r (hstays.1 id r hr)

/-- The client's side takes a step: nothing is written by the supervisor. -/
theorem heard (hT : Truthful s seen) (hE : Extends s' seen seen') (hS' : Sound env s')
    (hstays : Stays s s') (hwritten : s'.written = s.written)
    (hanswer : s'.client.hasSocket = true → ∀ req ev, s'.handling = some req →
      s'.sup.phase s'.conn = .answered ev → s.client.hasSocket = true ∧ s.handling = some req ∧
        s.sup.phase s.conn = .answered ev) : Truthful s' seen' where
  current := hE.notes
  answer hsock req ev hreq hopen hphase := by
    obtain ⟨hsock, hreq, hphase⟩ := hanswer hsock req ev hreq hphase
    obtain ⟨v, hv, hshows⟩ := hT.answer hsock req ev hreq (open_of_stays hstays hopen) hphase
    exact ⟨v, hE.grows hv, hshows⟩
  written w hw req hreq hopen := by
    rw [hwritten] at hw
    obtain ⟨v, hv, hshows⟩ := hT.written w hw req hreq (open_of_stays hstays hopen)
    exact ⟨v, hE.grows hv, hshows⟩
  returned id x hret := by
    by_cases hopen : ∀ r, (s.client.callers id).pc ≠ .returned r
    · -- the call returns: the line that completed its request was written during the call
      rcases hS'.settled.returned id (.ok x) hret with ⟨d, hd, rfl, hreply⟩ | ⟨msg, -, he⟩
      · obtain ⟨w, n, -, hn, hreq, -, hdone⟩ := hS'.settled.answers d hd
        have hw : w ∈ s.written := hwritten ▸ List.mem_of_getElem? hn
        rw [hreply] at hdone
        obtain ⟨v, hv, hshows⟩ := hT.written w hw d.req hreq hopen
        exact ⟨v, hE.grows hv, confirms_of_shows hdone hshows⟩
      · cases he
    · obtain ⟨r, hr⟩ := not_forall_not.mp hopen
      have hsame := (hstays.1 id r hr).symm.trans hret
      injection hsame with hsame
      obtain ⟨v, hv, hconfirms⟩ := hT.returned id x (hsame ▸ hr)
      exact ⟨v, hE.grows hv, hconfirms⟩

/-- The supervisor's side takes a step: the callers do not notice. -/
theorem served (hT : Truthful s seen) (hE : Extends s' seen seen')
    (hcallers : s'.client.callers = s.client.callers)
    (hanswer : s'.client.hasSocket = true → ∀ req ev, s'.handling = some req →
      (∀ r, (s.client.callers req.id).pc ≠ .returned r) → s'.sup.phase s'.conn = .answered ev →
        ∃ v ∈ seen' req.id, Shows ev v)
    (hwritten : ∀ w ∈ s'.written, w ∈ s.written ∨ ∀ req, w.request = some req →
      s.client.hasSocket = true ∧ s.handling = some req ∧ s.sup.phase s.conn = .answered w.ev) :
    Truthful s' seen' where
  current := hE.notes
  answer hsock req ev hreq hopen hphase := by
    rw [hcallers] at hopen
    exact hanswer hsock req ev hreq hopen hphase
  written w hw req hreq hopen := by
    rw [hcallers] at hopen
    rcases hwritten w hw with hw | hnew
    · obtain ⟨v, hv, hshows⟩ := hT.written w hw req hreq hopen
      exact ⟨v, hE.grows hv, hshows⟩
    · obtain ⟨hsock, hhandling, hphase⟩ := hnew req hreq
      obtain ⟨v, hv, hshows⟩ := hT.answer hsock req w.ev hhandling hopen hphase
      exact ⟨v, hE.grows hv, hshows⟩
  returned id x hret := by
    rw [hcallers] at hret
    obtain ⟨v, hv, hconfirms⟩ := hT.returned id x hret
    exact ⟨v, hE.grows hv, hconfirms⟩

end Truthful

/-! ## A step of the supervisor -/

theorem step_sup {a : Supervisor.Action} (h : step env s (.sup a) = some s') :
    (∃ sup, Supervisor.step env.sup s.sup a = some sup ∧ s.client.hasSocket = true ∧
      feeds s.conn a = false ∧ s' = s.supDo env a sup) ∨
    ∃ sup, Supervisor.step env.sup s.sup a = some sup ∧ s.client.hasSocket = false ∧
      s' = { s with sup } := by
  unfold step at h
  dsimp only at h
  split at h
  · next hsock =>
    split at h
    · cases h
    · next hfeed =>
      obtain ⟨sup, hs, rfl⟩ := Option.map_eq_some_iff.mp h
      exact .inl ⟨sup, hs, hsock, eq_false_of_ne_true hfeed, rfl⟩
  · next hsock =>
    obtain ⟨sup, hs, rfl⟩ := Option.map_eq_some_iff.mp h
    exact .inr ⟨sup, hs, eq_false_of_ne_true hsock, rfl⟩

/-- The supervisor of the link runs as one alone. -/
theorem sup_reachable (h : (link env).Reachable s) :
    (Supervisor.supervisor env.sup).Reachable s.sup := by
  refine h.invariant (I := fun s => (Supervisor.supervisor env.sup).Reachable s.sup) .init ?_
  intro s a s' _ hr _ hs
  have hstep : ∀ {a : Supervisor.Action} {sup : Sys}, Supervisor.step env.sup s.sup a = some sup →
      (Supervisor.supervisor env.sup).Reachable sup := fun hs => .step hr trivial hs
  cases a with
  | client a =>
    obtain ⟨-, -, client, -, rfl⟩ := step_client hs
    exact hr
  | sup a =>
    rcases step_sup hs with ⟨sup, hsup, -, -, rfl⟩ | ⟨sup, hsup, -, rfl⟩
    · exact hstep hsup
    · exact hstep hsup
  | connect uid =>
    obtain ⟨client, -, hs⟩ := Option.bind_eq_some_iff.mp hs
    obtain ⟨sup, hsup, rfl⟩ := Option.map_eq_some_iff.mp hs
    exact hstep hsup
  | up n =>
    obtain ⟨sup, hsup, rfl⟩ := Option.map_eq_some_iff.mp hs
    exact hstep hsup
  | down n =>
    obtain ⟨client, -, rfl⟩ := Option.map_eq_some_iff.mp hs
    exact hr

/-- Whose line is read, its client does nothing. -/
theorem phase_of_taken {sup : Sys} {l : Rust.Text} (h : s.taken sup = some l) :
    s.sup.phase s.conn = .idle := by
  unfold Link.taken at h
  split at h
  · next hserv =>
    have hloop : (s.sup.conns s.conn).pc.serving = .loop := hserv.1
    unfold Sys.phase
    generalize (s.sup.conns s.conn).pc = pc at hloop
    cases pc with
    | stopLock r | stopWait r g | stopHook r g => cases r <;> cases hloop
    | loop => rfl
    | _ => cases hloop
  · cases h

/-- The request that is processed stays the same until it is answered. -/
theorem handling_of_supDo {a : Supervisor.Action} {sup : Sys} {req : Request}
    (h : (s.supDo env a sup).handling = some req) (hbusy : s.sup.phase s.conn ≠ .idle) :
    s.handling = some req := by
  cases htaken : s.taken sup with
  | some l => exact absurd (phase_of_taken htaken) hbusy
  | none =>
    simp only [Link.supDo, htaken, Option.isSome_none, Bool.false_eq_true, if_false] at h
    split at h
    · exact h
    · cases h

/-- A request that is processed was called. -/
theorem Linked.handling_known (hL : Linked env s) (hI : Bridge.InFlight s.client) {req : Request}
    (h : s.handling = some req) : req.id < s.client.nCalls := by
  have howed : req ∈ s.owed := by simp [Link.owed, h]
  have hask : req ∈ s.client.asking := hL.owed.subset howed
  refine hI.known req ?_
  unfold Bridge.Client.inflight Bridge.Client.queued
  rcases List.mem_append.mp hask with hask | hask
  · exact List.mem_append_right _ (List.mem_append_left _ hask)
  · exact List.mem_append_left _ hask

/-- A line that is written for a request is the answer of the command loop. -/
theorem Linked.said_answer (hL : Linked env s) {a : Supervisor.Action} {sup : Sys}
    (hfeed : feeds s.conn a = false) (h : Supervisor.Served s.sup s.conn a (sup.conns s.conn))
    {w : Written} (hw : w ∈ s.said a sup) {req : Request} (hreq : w.request = some req) :
    s.handling = some req ∧ s.sup.phase s.conn = .answered w.ev := by
  have hsilent : (sup.conns s.conn).out ≠ (s.sup.conns s.conn).out := by
    intro hout
    rw [said_nil hout] at hw
    cases hw
  have hmine : Link.own s.conn a = true ∧ s.handling = some req := by
    obtain ⟨l, -, rfl⟩ := List.mem_map.mp hw
    dsimp only at hreq
    split at hreq
    · next hown => exact ⟨hown, hreq⟩
    · cases hreq
  obtain ⟨hown, hhandling⟩ := hmine
  have hserving : (s.sup.conns s.conn).pc.serving = .handling :=
    hL.handling.mp (by rw [hhandling]; rfl)
  refine ⟨hhandling, ?_⟩
  cases h with
  | quiet _ hout | close _ _ _ hout | first _ _ _ hout | take _ _ _ hout | blank _ _ _ _ hout
  | leave _ _ hout => exact absurd hout hsilent
  | arrive hact =>
    subst hact
    rw [feeds, beq_self_eq_true] at hfeed
    cases hfeed
  | push _ hgreeting =>
    obtain ⟨ans, hact⟩ := own_eq hown
    cases (hgreeting ans hact).symm.trans hserving
  | greet _ hwas => cases hwas.symm.trans hserving
  | @reply l ans _ hwas _ hout =>
    rw [said_one hout] at hw
    rw [List.mem_singleton.mp hw]
    exact Supervisor.phase_of_pc hwas

namespace Truthful

variable {seen seen' : ReqId → List CoreView} {a : Supervisor.Action} {sup : Sys}

/-- The supervisor takes a step while the client has its socket. -/
theorem supDo (hT : Truthful s seen) (hE : Extends (s.supDo env a sup) seen seen')
    (hS : Sound env s) (hS' : Sound env (s.supDo env a sup)) (hsock : s.client.hasSocket = true)
    (hfeed : feeds s.conn a = false) (hserved : Supervisor.Served s.sup s.conn a (sup.conns s.conn))
    (hphase : Commanded env.sup s.sup s.conn sup ∨ sup.phase s.conn = s.sup.phase s.conn) :
    Truthful (s.supDo env a sup) seen' := by
  refine hT.served hE rfl (fun _ req ev hreq hopen hanswered => ?_) fun w hw => ?_
  · have hid : req.id < s.client.nCalls := (hS'.linked hsock).handling_known hS'.inflight hreq
    -- the step sees the core of two states of the call
    have hbefore : s.sup.core.view ∈ seen' req.id :=
      hE.grows (hT.current req.id (Link.calling_of hid hopen))
    have hafter : sup.core.view ∈ seen' req.id := hE.notes req.id (Link.calling_of hid hopen)
    have hsame (he : sup.phase s.conn = s.sup.phase s.conn) : ∃ v ∈ seen' req.id, Shows ev v := by
      have hwas : s.sup.phase s.conn = .answered ev := he.symm.trans hanswered
      have hhandling := handling_of_supDo hreq (by rw [hwas]; simp)
      obtain ⟨v, hv, hshows⟩ := hT.answer hsock req ev hhandling hopen hwas
      exact ⟨v, hE.grows hv, hshows⟩
    rcases hphase with hcommanded | he
    · cases hcommanded with
      | quiet _ he => exact hsame he
      | call _ _ he | ret _ _ he => cases he.symm.trans hanswered
      | bad _ _ he =>
        cases he.symm.trans hanswered
        exact ⟨_, hbefore, trivial⟩
      | @perform k out _ _ he hperform =>
        cases out with
        | inl k' => cases he.symm.trans hanswered
        | inr r =>
          cases he.symm.trans hanswered
          rcases shows_of_performs hperform with hshows | hshows
          · exact ⟨_, hbefore, hshows⟩
          · exact ⟨_, hafter, hshows⟩
    · exact hsame he
  · rcases List.mem_append.mp hw with hw | hw
    · exact .inl hw
    · exact .inr fun req hreq => ⟨hsock, (hS.linked hsock).said_answer hfeed hserved hw hreq⟩

/-- A step of the client, or of the bytes between the two sides. -/
theorem step (hT : Truthful s seen) (hJ : Json env) (hr : (link env).Reachable s) {a : Action}
    (h : Wire.step env s a = some s') : Truthful s' (noteViews env s a seen) := by
  have hS := Sound.of_reachable hJ hr
  have hS' := hS.step hJ h
  have hstays := hS.stays h
  have hE := extends_noteViews h seen
  have hsup := sup_reachable hr
  cases a with
  | client a =>
    obtain ⟨hconnect, -, client, hs, rfl⟩ := step_client h
    refine hT.heard hE hS' hstays rfl fun hsock req ev hreq hphase => ⟨?_, hreq, hphase⟩
    cases hwas : s.client.hasSocket with
    | true => rfl
    | false =>
      have hnone := (Bridge.step_move hs).no_socket hconnect hwas
      exact absurd (hnone.symm.trans hsock) (by decide)
  | sup a =>
    rcases step_sup h with ⟨sup, hs, hsock, hfeed, rfl⟩ | ⟨sup, hs, hsock, rfl⟩
    · have hm := (Supervisor.step_move hs).2
      exact hT.supDo hE hS hS' hsock hfeed (hm.served (hS.linked hsock).known)
        (hm.commanded_or hsup s.conn)
    · refine hT.served hE rfl (fun hsock' => ?_) fun w hw => .inl hw
      exact absurd (hsock.symm.trans hsock') (by decide)
  | connect uid =>
    obtain ⟨client, -, h⟩ := Option.bind_eq_some_iff.mp h
    obtain ⟨sup, -, rfl⟩ := Option.map_eq_some_iff.mp h
    refine hT.heard hE hS' hstays rfl fun _ req ev hreq => ?_
    cases hreq
  | up n =>
    obtain ⟨sup, hs, rfl⟩ := Option.map_eq_some_iff.mp h
    obtain ⟨-, rfl⟩ := arrive_eq (Supervisor.step_move hs).2
    refine hT.served hE rfl (fun hsock req ev hreq hopen hphase => ?_) fun w hw => .inl hw
    have hwas : s.sup.phase s.conn = .answered ev := by
      simpa [Sys.phase] using hphase
    obtain ⟨v, hv, hshows⟩ := hT.answer hsock req ev hreq hopen hwas
    exact ⟨v, hE.grows hv, hshows⟩
  | down n =>
    obtain ⟨client, hs, rfl⟩ := Option.map_eq_some_iff.mp h
    refine hT.heard hE hS' hstays rfl fun _ req ev hreq hphase => ⟨?_, hreq, hphase⟩
    cases Bridge.step_move hs with
    | arrive hsock => exact hsock

end Truthful

/-! ## The property -/

/-- **What a caller is told was true during its call.** -/
theorem answers_true (hJ : Json env) (p : Link × (ReqId → List CoreView))
    (h : (watched env).Reachable p) (id : ReqId) (x : Value)
    (hret : (p.1.client.callers id).pc = .returned (.ok x)) : ∃ v ∈ p.2 id, Confirms x v := by
  have hT : Truthful p.1 p.2 := by
    refine h.invariant (I := fun p => Truthful p.1 p.2) (.init env) ?_
    intro p a p' hr hT _ hs
    have hr : ((link env).recording (fun _ => []) (noteViews env)).Reachable p := hr
    rw [hs.2]
    exact hT.step hJ hr.of_recording hs.1
  exact hT.returned id x hret

/-- A core is started for a caller, and exits before the caller gets its pid and its port. -/
def Trial.startLate : List Action :=
  Trial.session ++ Trial.start.dropLast ++ (Supervisor.Client.perish 0).map .sup ++
    [.client (.receive 0)]

theorem answers_true_start : ∃ p, (watched Trial.env).Reachable p ∧
    (p.1.client.callers 0).pc = .returned (.ok (.start ⟨77, 5000⟩)) ∧ p.1.sup.core = .stopped ∧
    ∃ v ∈ p.2 0, Confirms (.start ⟨77, 5000⟩) v := by
  have hrec : watched Trial.env =
      .ofStep (.init Trial.env, fun _ => [])
        (System.recordStep (step Trial.env) (noteViews Trial.env)) :=
    System.recording_ofStep
  have hrun : (System.runBy (System.recordStep (step Trial.env) (noteViews Trial.env))
      (fun _ _ => True) (.init Trial.env, fun _ => []) Trial.startLate).any
        (fun p => decide ((p.1.client.callers 0).pc = .returned (.ok (.start ⟨77, 5000⟩)) ∧
          p.1.sup.core = .stopped)) = true := by
    decide +kernel
  obtain ⟨p, hp, hq⟩ := System.exists_reachableBy_of_runBy hrun
  rw [← hrec] at hp
  obtain ⟨hret, hcore⟩ := of_decide_eq_true hq
  exact ⟨p, hp, hret, hcore, answers_true Trial.json p hp 0 _ hret⟩

end EasyTierMac.Wire
