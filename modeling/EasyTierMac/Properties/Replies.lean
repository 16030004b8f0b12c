import EasyTierMac.Wire.Ledger
import EasyTierMac.Wire.Runs

/-!
# Replies reach the request they answer

The control protocol has no request ids. That a reply is the answer to the request that the
client has in flight rests on both ends: the client asks one request at a time and keeps it
pending even when its caller has given up, and the supervisor answers every command line
with one line, in order, while pushes complete nothing. So whatever a caller gets was written
while the supervisor processed the command line of that caller's own request, no line
completes two requests, and no request is completed twice.
-/

namespace EasyTierMac.Wire

open Supervisor (Sys)
open Bridge (Client ReqId Reply InFlight Kinds LocalError)
open Transition (System)

variable {env : Env} {s s' : Link}

/-! ## Every reachable state -/

structure Sound (env : Env) (s : Link) : Prop where
  inflight : InFlight s.client
  kinds : Kinds s.client
  ledger : Ledger env s
  settled : Settled env s
  linked : s.client.hasSocket = true → Linked env s

theorem step_client {a : Bridge.Action} (h : step env s (.client a) = some s') :
    a ≠ .connect true ∧ (∀ bytes, a ≠ .arrive bytes) ∧ ∃ client,
      Bridge.step env.client s.client a = some client ∧ s' = s.clientDo env a client := by
  unfold step at h
  split at h
  · cases h
  · cases h
  · next hconnect harrive he =>
    cases he
    obtain ⟨client, hs, rfl⟩ := Option.map_eq_some_iff.mp h
    exact ⟨fun he => hconnect (he ▸ rfl), fun bytes he => harrive bytes (he ▸ rfl), client, hs, rfl⟩
  all_goals next he => cases he

theorem accept_eq {uid : Option UInt32} {sup : Sys}
    (h : Supervisor.Move env.sup s.sup (.accept uid) sup) : sup = { s.sup with
      conns := Function.update s.sup.conns s.sup.nConns { pc := .auth, uid := uid }
      nConns := s.sup.nConns + 1 } := by
  cases h with
  | other h =>
    cases h with
    | accept => rfl
    | procs ha => rcases ha with ⟨p, ha⟩ | ⟨pid, ha⟩ <;> cases ha

theorem arrive_eq {c : Supervisor.ConnId} {bytes : List UInt8} {sup : Sys}
    (h : Supervisor.Move env.sup s.sup (.arrive c bytes) sup) : (s.sup.conns c).closed = false ∧
      sup = s.sup.modConn c fun k => { k with sock := k.sock ++ bytes } := by
  cases h with
  | other h =>
    cases h with
    | arrive hopen => exact ⟨hopen, rfl⟩
    | procs ha => rcases ha with ⟨p, ha⟩ | ⟨pid, ha⟩ <;> cases ha

/-- A fresh socket, with the hello on its way. -/
theorem linked_connect {sup : Sys} {uid : Option UInt32} (he : sup = { s.sup with
      conns := Function.update s.sup.conns s.sup.nConns { pc := .auth, uid := uid }
      nConns := s.sup.nConns + 1 }) :
    Linked env (s.connectDo env ((s.client.setStream {}).setDriver .sendHello) sup) := by
  subst he
  constructor
  · exact Nat.lt_succ_self _
  · intro _
    refine ⟨s.client.nextTakeover, .flows _ ?_ fun _ => rfl⟩
    simp [Link.connectDo, Link.serving, helloLines, Supervisor.ConnPc.serving]
  · exact .flows (.idle rfl rfl)
  · simp [Link.connectDo, Link.serving, Supervisor.ConnPc.serving]
  · exact List.nil_subperm
  · exact fun _ => rfl
  · exact Nat.zero_le 1
  · intro h
    cases h

namespace Sound

theorem init : Sound env (.init env) where
  inflight := .init
  kinds := .init
  ledger := by
    refine ⟨fun p hp => ?_, List.nodup_nil, fun p hp => ?_, fun req h => ?_, fun w hw => ?_⟩
    · cases hp
    · cases hp
    · cases h
    · cases hw
  settled := by
    refine ⟨fun d hd => ?_, fun d hd => ?_, List.nodup_nil, List.nodup_nil, fun d hd => ?_,
      fun d hd => ?_, fun id hid => rfl, fun id r h => ?_, fun id r h => ?_⟩
    · cases hd
    · cases hd
    · cases hd
    · cases hd
    · cases h
    · cases h
  linked h := nomatch h

/-- The client takes a step. -/
theorem client (hS : Sound env s) (hJ : Json env) {a : Bridge.Action} {client : Client}
    (hconnect : a ≠ .connect true) (harrive : ∀ bytes, a ≠ .arrive bytes)
    (h : Bridge.Move env.client s.client a client) : Sound env (s.clientDo env a client) where
  inflight := hS.inflight.step h
  kinds := hS.kinds.step hS.inflight h
  ledger := hS.ledger.forget (Settled.arriving_clientDo s a client) rfl rfl rfl fun _ h => h
  settled := by
    refine hS.settled.clientDo hS.ledger hS.inflight hS.kinds h fun l req r hread hdone => ?_
    obtain ⟨hl, st, hpoll⟩ := Bridge.poll_of_lineRead hread
    have hsock : s.client.hasSocket = true := by
      unfold Bridge.completes at hdone
      split at hdone
      · next hd =>
        unfold Client.hasSocket
        rw [hd]
      · cases hdone
    exact (hS.linked hsock).answered hJ hl hpoll hdone
  linked hsock := by
    have hsock' : s.client.hasSocket = true := by
      cases hs : s.client.hasSocket with
      | true => rfl
      | false =>
        have hno := h.no_socket hconnect hs
        exact absurd (hno.symm.trans hsock) Bool.false_ne_true
    exact (hS.linked hsock').heard hJ hsock (h.heard hS.inflight hsock' harrive)

/-- The supervisor takes a step. -/
theorem sup (hS : Sound env s) (hJ : Json env) {a : Supervisor.Action} {sup : Sys}
    (hsock : s.client.hasSocket = true) (hfeed : feeds s.conn a = false)
    (h : Supervisor.Move env.sup s.sup a sup) : Sound env (s.supDo env a sup) := by
  have hL := hS.linked hsock
  obtain ⟨hL', hread⟩ := hL.served hJ h.nConns_le hfeed (h.served hL.known)
  refine ⟨hS.inflight, hS.kinds, hS.ledger.supDo hread, ?_, fun _ => hL'⟩
  refine hS.settled.keep rfl rfl rfl (List.prefix_append _ _) (List.subset_append_left _ _) ?_
  intro d hd p hp hin
  rcases List.mem_append.mp hin with hin | hin
  · exact hin
  · -- the line of a completion was written earlier
    obtain ⟨w, n, hline, hn, -⟩ := hS.settled.answers d hd
    rw [hline] at hp
    cases hp
    have hlt := (List.getElem?_eq_some_iff.mp hn).1
    exact absurd hlt (Nat.not_lt.mpr (List.le_snd_of_mem_zipIdx hin))

/-- The supervisor takes a step after the client has closed its socket. -/
theorem sup_alone (hS : Sound env s) (hsock : s.client.hasSocket = false) (sup : Sys) :
    Sound env { s with sup } where
  inflight := hS.inflight
  kinds := hS.kinds
  ledger := hS.ledger.forget (List.Sublist.refl _) rfl rfl rfl fun _ h => h
  settled := hS.settled.keep rfl rfl rfl (List.prefix_refl _) (List.Subset.refl _)
    fun _ _ _ _ h => h
  linked h := absurd (hsock.symm.trans h) Bool.false_ne_true

/-- The client connects. -/
theorem connect (hS : Sound env s) {client : Client} {sup : Sys} {uid : Option UInt32}
    (hc : Bridge.Move env.client s.client (.connect true) client)
    (hs : Supervisor.Move env.sup s.sup (.accept uid) sup) :
    Sound env (s.connectDo env client sup) where
  inflight := hS.inflight.step hc
  kinds := hS.kinds.step hS.inflight hc
  ledger := hS.ledger.forget (List.nil_sublist _) rfl rfl rfl fun _ h => nomatch h
  settled := by
    cases hc
    exact hS.settled.keep rfl rfl rfl (List.prefix_refl _) (List.Subset.refl _)
      fun _ _ _ _ h => nomatch h
  linked _ := by
    cases hc with
    | connect hd => exact linked_connect (accept_eq hs)

/-- Bytes arrive at the supervisor. -/
theorem up (hS : Sound env s) {n : Nat} {sup : Sys}
    (h : Supervisor.Move env.sup s.sup (.arrive s.conn (s.up.take n)) sup) :
    Sound env { s with sup, up := s.up.drop n } where
  inflight := hS.inflight
  kinds := hS.kinds
  ledger := hS.ledger.forget (List.Sublist.refl _) rfl rfl rfl fun _ h => h
  settled := hS.settled.keep rfl rfl rfl (List.prefix_refl _) (List.Subset.refl _)
    fun _ _ _ _ h => h
  linked hsock := by
    have hL := hS.linked hsock
    obtain ⟨hopen, rfl⟩ := arrive_eq h
    have hserv : Link.serving { s with
        sup := s.sup.modConn s.conn fun k => { k with sock := k.sock ++ s.up.take n }
        up := s.up.drop n } = s.serving := by simp [Link.serving]
    constructor
    · exact hL.known
    · intro hne
      rw [hserv] at hne ⊢
      obtain ⟨takeover, hup⟩ := hL.uplink hne
      refine ⟨takeover, ?_⟩
      simpa using hup.arrive hopen n
    · exact hL.downlink
    · rw [hserv]
      exact hL.handling
    · exact hL.owed
    · rw [hserv]
      exact hL.greets_early
    · exact hL.greets_once
    · rw [hserv]
      exact hL.session

/-- Bytes arrive at the client. -/
theorem down (hS : Sound env s) {n : Nat} {client : Client}
    (h : Bridge.Move env.client s.client (.arrive (s.down.take n)) client) :
    Sound env { s with client, down := s.down.drop n } where
  inflight := hS.inflight.step h
  kinds := hS.kinds.step hS.inflight h
  ledger := hS.ledger.forget (List.Sublist.refl _) rfl rfl rfl fun _ h => h
  settled := by
    cases h
    exact hS.settled.keep rfl rfl rfl (List.prefix_refl _) (List.Subset.refl _) fun _ _ _ _ h => h
  linked hsock := by
    cases h with
    | arrive hsock' hopen =>
    have hL := hS.linked hsock'
    exact ⟨hL.known, hL.uplink, hL.downlink.arrive hopen n, hL.handling, hL.owed,
      hL.greets_early, hL.greets_once, hL.session⟩

theorem step (hS : Sound env s) (hJ : Json env) {a : Action} (h : step env s a = some s') :
    Sound env s' := by
  cases a with
  | client a =>
    obtain ⟨hconnect, harrive, client, hs, rfl⟩ := step_client h
    exact hS.client hJ hconnect harrive (Bridge.step_move hs)
  | sup a =>
    unfold Wire.step at h
    dsimp only at h
    split at h
    · next hsock =>
      split at h
      · cases h
      · next hfeed =>
        obtain ⟨sup, hs, rfl⟩ := Option.map_eq_some_iff.mp h
        exact hS.sup hJ hsock (eq_false_of_ne_true hfeed) (Supervisor.step_move hs).2
    · next hsock =>
      obtain ⟨sup, -, rfl⟩ := Option.map_eq_some_iff.mp h
      exact hS.sup_alone (eq_false_of_ne_true hsock) sup
  | connect uid =>
    obtain ⟨client, hc, h⟩ := Option.bind_eq_some_iff.mp h
    obtain ⟨sup, hs, rfl⟩ := Option.map_eq_some_iff.mp h
    exact hS.connect (Bridge.step_move hc) (Supervisor.step_move hs).2
  | up n =>
    obtain ⟨sup, hs, rfl⟩ := Option.map_eq_some_iff.mp h
    exact hS.up (Supervisor.step_move hs).2
  | down n =>
    obtain ⟨client, hc, rfl⟩ := Option.map_eq_some_iff.mp h
    exact hS.down (Bridge.step_move hc)

theorem of_reachable (hJ : Json env) (h : (link env).Reachable s) : Sound env s :=
  h.invariant init fun _ hS _ hs => hS.step hJ hs

end Sound

/-! ## Results stay -/

/-- What a caller has got, and what is in its channel, does not change any more. -/
def Stays (s s' : Link) : Prop :=
  (∀ id r, (s.client.callers id).pc = .returned r → (s'.client.callers id).pc = .returned r) ∧
    ∀ id, (s.client.callers id).slot ≠ .empty →
      (s'.client.callers id).slot = (s.client.callers id).slot

theorem Stays.of_callers (h : s'.client.callers = s.client.callers) : Stays s s' := by
  refine ⟨fun id r hr => ?_, fun id _ => ?_⟩
  · rw [h]
    exact hr
  · rw [h]

theorem Stays.trans {s'' : Link} (h : Stays s s') (h' : Stays s' s'') : Stays s s'' := by
  refine ⟨fun id r hr => h'.1 id r (h.1 id r hr), fun id hne => ?_⟩
  have he := h.2 id hne
  exact (h'.2 id (he ▸ hne)).trans he

/-- A step of the client. -/
theorem Sound.stays_client (hS : Sound env s) {a : Bridge.Action} {client : Client}
    (h : Bridge.Move env.client s.client a client) (hs : s'.client = client) : Stays s s' := by
  subst hs
  refine ⟨fun id r hr => h.returned_stable hS.inflight hr, fun id hne => ?_⟩
  refine h.slot_stable hS.inflight ?_ hne
  by_contra hle
  exact hne (hS.settled.fresh id (Nat.le_of_not_lt hle))

theorem Sound.stays (hS : Sound env s) {a : Action} (h : Wire.step env s a = some s') :
    Stays s s' := by
  cases a with
  | client a =>
    obtain ⟨-, -, client, hs, rfl⟩ := step_client h
    exact hS.stays_client (Bridge.step_move hs) rfl
  | sup a =>
    unfold Wire.step at h
    dsimp only at h
    split at h
    · split at h
      · cases h
      · obtain ⟨sup, -, rfl⟩ := Option.map_eq_some_iff.mp h
        exact .of_callers rfl
    · obtain ⟨sup, -, rfl⟩ := Option.map_eq_some_iff.mp h
      exact .of_callers rfl
  | connect uid =>
    obtain ⟨client, hc, h⟩ := Option.bind_eq_some_iff.mp h
    obtain ⟨sup, -, rfl⟩ := Option.map_eq_some_iff.mp h
    exact hS.stays_client (Bridge.step_move hc) rfl
  | up n =>
    obtain ⟨sup, -, rfl⟩ := Option.map_eq_some_iff.mp h
    exact .of_callers rfl
  | down n =>
    obtain ⟨client, hc, rfl⟩ := Option.map_eq_some_iff.mp h
    exact hS.stays_client (Bridge.step_move hc) rfl

/-! ## The property -/

/-- **Replies reach the request they answer.** What a caller returns is the reply of a line
that the supervisor wrote while it processed the command line of this caller's request, or
an error that the client itself made up; every completion is of the first kind; no line
completes two requests and no request is completed twice; and a result never changes. -/
theorem replies_reach_requests (hJ : Json env) {s : Link} (h : (link env).Reachable s) :
    (∀ id r, (s.client.callers id).pc = .returned r →
      (∃ d ∈ s.done, d.req.id = id ∧ d.req.kind = (s.client.callers id).kind ∧ d.reply = r ∧
        Answers env s d) ∨ ∃ msg, LocalError msg ∧ r = .error msg) ∧
    (∀ d ∈ s.done, Answers env s d ∧ (s.client.callers d.req.id).slot = .filled d.reply) ∧
    (s.done.map fun d => d.line).Nodup ∧ (s.done.map fun d => d.req.id).Nodup ∧
    ∀ s', (link env).PathBy (fun _ _ => True) s s' → Stays s s' := by
  have hS := Sound.of_reachable hJ h
  refine ⟨fun id r hr => ?_, fun d hd => ⟨hS.settled.answers d hd, hS.settled.filled d hd⟩,
    hS.settled.lines, hS.settled.ids, fun s' hp => ?_⟩
  · refine (hS.settled.returned id r hr).imp_left ?_
    rintro ⟨d, hd, rfl, hreply⟩
    exact ⟨d, hd, rfl, (hS.settled.kind d hd).symm, hreply, hS.settled.answers d hd⟩
  · refine hp.invariant h (I := Stays s) (.of_callers rfl) fun hr hst _ hs => ?_
    exact hst.trans ((Sound.of_reachable hJ hr).stays hs)

/-- `start` returns the pid and the port of the line that was written for it. -/
theorem replies_reach_requests_start : ∃ s, (link Trial.env).Reachable s ∧
    (s.client.callers 0).pc = .returned (.ok (.start ⟨77, 5000⟩)) ∧
    ∃ d ∈ s.done, d.req.id = 0 ∧ Answers Trial.env s d := by
  obtain ⟨s, h, hp⟩ := exists_reachable Trial.env (Trial.session ++ Trial.start)
    (fun s => decide ((s.client.callers 0).pc = .returned (.ok (.start ⟨77, 5000⟩))))
    (by decide +kernel)
  have hret : (s.client.callers 0).pc = .returned (.ok (.start ⟨77, 5000⟩)) := of_decide_eq_true hp
  rcases (replies_reach_requests Trial.json h).1 0 _ hret with ⟨d, hd, hid, -, -, hans⟩ | ⟨_, -, he⟩
  · exact ⟨s, h, hret, d, hd, hid, hans⟩
  · cases he

end EasyTierMac.Wire
