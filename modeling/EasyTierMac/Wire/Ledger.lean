import EasyTierMac.Wire.Invariant

/-!
# What the lines were for

The ghost state of `Link` keeps its own books: lines are numbered without gaps, each was
written for the request whose command line the supervisor had read (`Ledger`), and no line
completes two requests, or a request twice (`Settled`). `Sound` collects what holds of every
reachable state.
-/

namespace EasyTierMac.Wire

open Supervisor (Sys)
open Bridge (Client Request Reply ReqId Slot InFlight Kinds LocalError lineRead completes
  dispatchEvent)

variable {env : Env} {s s' : Link}

/-- The command loop has read the command line of the request. -/
def Link.Read (env : Env) (s : Link) (req : Request) : Prop :=
  (some req, Bridge.encodeCmd env.client.codec req.cmd) ∈ s.reads

/-! ## The lines of the supervisor -/

structure Ledger (env : Env) (s : Link) : Prop where
  serial : ∀ p ∈ s.arriving, s.written[p.2]? = some p.1
  nodup : (s.arriving.map Prod.snd).Nodup
  reads : ∀ p ∈ s.reads, ∃ req, p = (some req, Bridge.encodeCmd env.client.codec req.cmd)
  handled : ∀ req, s.handling = some req → s.Read env req
  writer : ∀ w ∈ s.written, ∀ req, w.request = some req → s.Read env req

namespace Ledger

/-- Lines that have been read, or that nobody will read any more, are forgotten. -/
theorem forget (hG : Ledger env s) {ps : List (Written × Nat)} (hps : ps.Sublist s.arriving)
    (harr : s'.arriving = ps) (hw : s'.written = s.written) (hr : s'.reads = s.reads)
    (hh : ∀ req, s'.handling = some req → s.handling = some req) : Ledger env s' where
  serial p hp := by
    rw [harr] at hp
    rw [hw]
    exact hG.serial p (hps.subset hp)
  nodup := by
    rw [harr]
    exact hG.nodup.sublist (hps.map _)
  reads := hr ▸ hG.reads
  handled req hreq := by
    unfold Link.Read
    rw [hr]
    exact hG.handled req (hh req hreq)
  writer := by
    unfold Link.Read
    rw [hw, hr]
    exact hG.writer

theorem lt_length (hG : Ledger env s) {p : Written × Nat} (hp : p ∈ s.arriving) :
    p.2 < s.written.length :=
  (List.getElem?_eq_some_iff.mp (hG.serial p hp)).1

/-- A step of the supervisor. -/
theorem supDo (hG : Ledger env s) {a : Supervisor.Action} {sup : Sys}
    (hread : ∀ l, s.taken sup = some l →
      ∃ req, s.inbox.head? = some req ∧ l = Bridge.encodeCmd env.client.codec req.cmd) :
    Ledger env (s.supDo env a sup) := by
  -- what has been read stays read
  have hkeep : ∀ req, s.Read env req → (s.supDo env a sup).Read env req :=
    fun req h => List.mem_append_left _ h
  constructor
  · intro p hp
    show (s.written ++ s.said a sup)[p.2]? = some p.1
    rcases List.mem_append.mp hp with hp | hp
    · rw [List.getElem?_append_left (hG.lt_length hp)]
      exact hG.serial p hp
    · obtain ⟨hle, he⟩ := List.mem_zipIdx_iff_le_and_getElem?_sub.mp hp
      rw [List.getElem?_append_right hle]
      exact he
  · show ((s.arriving ++ (s.said a sup).zipIdx s.written.length).map Prod.snd).Nodup
    rw [List.map_append, List.zipIdx_map_snd, List.nodup_append]
    refine ⟨hG.nodup, List.nodup_range', fun n hn m hm he => ?_⟩
    obtain ⟨p, hp, rfl⟩ := List.mem_map.mp hn
    rw [List.mem_range'_1] at hm
    exact absurd (hG.lt_length hp) (Nat.not_lt.mpr (he ▸ hm.1))
  · intro p hp
    rcases List.mem_append.mp hp with hp | hp
    · exact hG.reads p hp
    · obtain ⟨l, hl, rfl⟩ := Option.map_eq_some_iff.mp (Option.mem_toList.mp hp)
      obtain ⟨req, hreq, rfl⟩ := hread l hl
      exact ⟨req, by rw [hreq]⟩
  · intro req hreq
    cases hl : s.taken sup with
    | none =>
      simp only [Link.supDo, hl, Option.isSome_none, Bool.false_eq_true, if_false] at hreq
      split at hreq
      · exact hkeep req (hG.handled req hreq)
      · cases hreq
    | some l =>
      simp only [Link.supDo, hl, Option.isSome_some, if_true] at hreq
      obtain ⟨req', hreq', rfl⟩ := hread l hl
      rw [hreq'] at hreq
      cases hreq
      refine List.mem_append_right _ ?_
      simp [hl, hreq']
  · intro w hw req hreq
    rcases List.mem_append.mp hw with hw | hw
    · exact hkeep req (hG.writer w hw req hreq)
    · obtain ⟨l, -, rfl⟩ := List.mem_map.mp hw
      dsimp only at hreq
      split at hreq
      · exact hkeep req (hG.handled req hreq)
      · cases hreq

end Ledger

/-! ## The requests that are completed -/

/-- The completion comes from a line that the supervisor wrote while it processed the
command line of this request. -/
def Answers (env : Env) (s : Link) (d : Completion) : Prop :=
  ∃ w n, d.line = some (w, n) ∧ s.written[n]? = some w ∧ w.request = some d.req ∧
    s.Read env d.req ∧ (dispatchEvent (mirror w.ev) (some d.req)).reply = some (d.req, d.reply)

/-- The result is that of a completion, or an error that the client made up. -/
def Accounted (s : Link) (id : ReqId) (r : Reply) : Prop :=
  (∃ d ∈ s.done, d.req.id = id ∧ d.reply = r) ∨ ∃ msg, LocalError msg ∧ r = .error msg

structure Settled (env : Env) (s : Link) : Prop where
  answers : ∀ d ∈ s.done, Answers env s d
  past : ∀ d ∈ s.done, ∀ p, d.line = some p → p ∉ s.arriving
  lines : (s.done.map fun d => d.line).Nodup
  ids : (s.done.map fun d => d.req.id).Nodup
  filled : ∀ d ∈ s.done, (s.client.callers d.req.id).slot = .filled d.reply
  kind : ∀ d ∈ s.done, (s.client.callers d.req.id).kind = d.req.kind
  fresh : ∀ id, s.client.nCalls ≤ id → (s.client.callers id).slot = .empty
  slot : ∀ id r, (s.client.callers id).slot = .filled r → Accounted s id r
  returned : ∀ id r, (s.client.callers id).pc = .returned r → Accounted s id r

namespace Settled

/-- Neither the callers nor the completions change, and what was written and read stays. -/
theorem keep (hS : Settled env s) (hc : s'.client.callers = s.client.callers)
    (hn : s'.client.nCalls = s.client.nCalls) (hd : s'.done = s.done)
    (hw : s.written <+: s'.written) (hr : s.reads ⊆ s'.reads)
    (harr : ∀ d ∈ s.done, ∀ p, d.line = some p → p ∈ s'.arriving → p ∈ s.arriving) :
    Settled env s' where
  answers d hmem := by
    obtain ⟨w, n, hline, hn, hreq, hread, hreply⟩ := hS.answers d (hd ▸ hmem)
    obtain ⟨more, hmore⟩ := hw
    refine ⟨w, n, hline, ?_, hreq, hr hread, hreply⟩
    rw [← hmore, List.getElem?_append_left (List.getElem?_eq_some_iff.mp hn).1]
    exact hn
  past d hmem p hp hin := hS.past d (hd ▸ hmem) p hp (harr d (hd ▸ hmem) p hp hin)
  lines := hd ▸ hS.lines
  ids := hd ▸ hS.ids
  filled d hmem := by
    rw [hc]
    exact hS.filled d (hd ▸ hmem)
  kind d hmem := by
    rw [hc]
    exact hS.kind d (hd ▸ hmem)
  fresh id hid := by
    rw [hc]
    exact hS.fresh id (hn ▸ hid)
  slot id r h := by
    unfold Accounted
    rw [hd]
    exact hS.slot id r (hc ▸ h)
  returned id r h := by
    unfold Accounted
    rw [hd]
    exact hS.returned id r (hc ▸ h)

/-- A request that was completed was called. -/
theorem lt_nCalls (hS : Settled env s) {d : Completion} (hd : d ∈ s.done) :
    d.req.id < s.client.nCalls := by
  by_contra hle
  have hempty := hS.fresh d.req.id (Nat.le_of_not_lt hle)
  rw [hS.filled d hd] at hempty
  cases hempty

variable {a : Bridge.Action} {client : Client}

/-- What a step of the client completes. -/
theorem done_cases (env : Env) (s : Link) (a : Bridge.Action) (client : Client) :
    (s.clientDo env a client).done = s.done ∧
      (∀ l req r, lineRead s.client a = some l →
        completes env.client.codec s.client l ≠ some (req, r)) ∨
      ∃ l req r, lineRead s.client a = some l ∧
        completes env.client.codec s.client l = some (req, r) ∧
        (s.clientDo env a client).done = s.done ++ [⟨req, s.arriving.head?, r⟩] ∧
        (s.clientDo env a client).arriving = s.arriving.tail := by
  cases hl : lineRead s.client a with
  | none => exact .inl ⟨by simp [Link.clientDo, hl], fun l req r h => nomatch h⟩
  | some l =>
    cases hd : completes env.client.codec s.client l with
    | none =>
      refine .inl ⟨by simp [Link.clientDo, hl, hd], fun l' req r h => ?_⟩
      cases h
      rw [hd]
      exact nofun
    | some done =>
      obtain ⟨req, r⟩ := done
      exact .inr ⟨l, req, r, rfl, hd, by simp [Link.clientDo, hl, hd], by simp [Link.clientDo, hl]⟩

theorem arriving_clientDo (s : Link) (a : Bridge.Action) (client : Client) :
    (s.clientDo env a client).arriving.Sublist s.arriving := by
  unfold Link.clientDo
  dsimp only
  split
  · exact List.tail_sublist _
  · exact List.Sublist.refl _

/-- Calls that have not been made have an empty channel. -/
theorem fresh_step (hS : Settled env s) (hI : InFlight s.client)
    (h : Bridge.Move env.client s.client a client) {id : ReqId} (hid : client.nCalls ≤ id) :
    (client.callers id).slot = .empty := by
  have hid' := Nat.le_trans h.nCalls_le hid
  have hunknown : ¬ s.client.holds id := by
    rintro ⟨r, hr, rfl⟩
    exact absurd (hI.known r hr) (Nat.not_lt.mpr hid')
  cases h.slot_cases id with
  | keep he => exact he.trans (hS.fresh id hid')
  | called _ he => exact he
  | dropped hh | failed hh => exact absurd hh hunknown
  | @completed l req r hread hdone he =>
    refine absurd (Bridge.holds_of_pending ⟨req, ?_, he⟩) hunknown
    rw [(h.completed hread hdone).1]
    exact Option.mem_toList.mpr rfl

/-- A channel is filled by a completion or with an error of the client. -/
theorem slot_step (hS : Settled env s) (h : Bridge.Move env.client s.client a client)
    (hold : s.done ⊆ (s.clientDo env a client).done)
    (hnew : ∀ l req r, lineRead s.client a = some l →
      completes env.client.codec s.client l = some (req, r) →
        ∃ d ∈ (s.clientDo env a client).done, d.req = req ∧ d.reply = r)
    {id : ReqId} {r : Reply} (hr : (client.callers id).slot = .filled r) :
    Accounted (s.clientDo env a client) id r := by
  cases h.slot_cases id with
  | keep he =>
    exact (hS.slot id r (he.symm.trans hr)).imp_left fun ⟨d, hd, hid⟩ => ⟨d, hold hd, hid⟩
  | called _ he | dropped _ he => cases he.symm.trans hr
  | failed _ made he =>
    cases he.symm.trans hr
    exact .inr ⟨_, made, rfl⟩
  | completed hread hdone hid he =>
    cases he.symm.trans hr
    obtain ⟨d, hd, rfl, hreply⟩ := hnew _ _ _ hread hdone
    exact .inl ⟨d, hd, hid, hreply⟩

/-- What a caller returns comes from a completion, or from the client. -/
theorem returned_step (hS : Settled env s) (h : Bridge.Move env.client s.client a client)
    (hold : s.done ⊆ (s.clientDo env a client).done) {id : ReqId} {r : Reply}
    (hr : (client.callers id).pc = .returned r) : Accounted (s.clientDo env a client) id r := by
  have hmore : Accounted s id r → Accounted (s.clientDo env a client) id r :=
    Or.imp_left fun ⟨d, hd, hid⟩ => ⟨d, hold hd, hid⟩
  rcases h.returned_cases hr with hret | hslot | hmade
  · exact hmore (hS.returned id r hret)
  · exact hmore (hS.slot id r hslot)
  · exact .inr hmade

/-- A completion of earlier stays as it is. -/
theorem filled_step (hS : Settled env s) (hI : InFlight s.client)
    (h : Bridge.Move env.client s.client a client) {d : Completion} (hd : d ∈ s.done) :
    (client.callers d.req.id).slot = .filled d.reply ∧
      (client.callers d.req.id).kind = d.req.kind := by
  have hfilled := hS.filled d hd
  have hused : (s.client.callers d.req.id).slot ≠ .empty := by
    rw [hfilled]
    exact Slot.noConfusion
  exact ⟨(h.slot_stable hI (hS.lt_nCalls hd) hused).trans hfilled,
    (h.kind_eq (hS.lt_nCalls hd)).trans (hS.kind d hd)⟩

/-- **A step of the client.** The line that completes a request was written for it. -/
theorem clientDo (hS : Settled env s) (hG : Ledger env s) (hI : InFlight s.client)
    (hK : Kinds s.client) (h : Bridge.Move env.client s.client a client)
    (hans : ∀ l req r, lineRead s.client a = some l →
      completes env.client.codec s.client l = some (req, r) →
        ∃ p, s.arriving.head? = some p ∧ p.1.request = some req ∧
          (dispatchEvent (mirror p.1.ev) (some req)).reply = some (req, r)) :
    Settled env (s.clientDo env a client) := by
  have hanswers : ∀ d ∈ s.done, Answers env (s.clientDo env a client) d := hS.answers
  have hpast : ∀ d ∈ s.done, ∀ p, d.line = some p → p ∉ (s.clientDo env a client).arriving :=
    fun d hd p hp hin => hS.past d hd p hp ((arriving_clientDo s a client).subset hin)
  rcases done_cases env s a client with
    ⟨hdone, hnone⟩ | ⟨l, req, r, hread, hcomp, hdone, htail⟩
  · have hold : s.done ⊆ (s.clientDo env a client).done := hdone ▸ List.Subset.refl _
    exact {
      answers := fun d hd => hanswers d (hdone ▸ hd)
      past := fun d hd => hpast d (hdone ▸ hd)
      lines := hdone ▸ hS.lines
      ids := hdone ▸ hS.ids
      filled := fun d hd => (hS.filled_step hI h (hdone ▸ hd)).1
      kind := fun d hd => (hS.filled_step hI h (hdone ▸ hd)).2
      fresh := fun id hid => hS.fresh_step hI h hid
      slot := fun id r' => hS.slot_step h hold fun l req r hl hc => absurd hc (hnone l req r hl)
      returned := fun id r' => hS.returned_step h hold }
  · obtain ⟨p, hhead, hreq, hreply⟩ := hans l req r hread hcomp
    obtain ⟨hpend, hslot⟩ := h.completed hread hcomp
    obtain ⟨ps, hps⟩ := List.head?_eq_some_iff.mp hhead
    rw [hhead] at hdone
    have hold : s.done ⊆ (s.clientDo env a client).done := by
      rw [hdone]
      exact List.subset_append_left _ _
    have hin : req ∈ s.client.inflight :=
      List.mem_append_left _ (by rw [hpend]; exact Option.mem_toList.mpr rfl)
    have hmem : ∀ {P : Completion → Prop}, (∀ d ∈ s.done, P d) → P ⟨req, some p, r⟩ →
        ∀ d ∈ (s.clientDo env a client).done, P d := by
      intro P hP hnew d hd
      rw [hdone] at hd
      rcases List.mem_append.mp hd with hd | hd
      · exact hP d hd
      · exact List.mem_singleton.mp hd ▸ hnew
    have harr : p ∈ s.arriving := hps ▸ List.mem_cons_self
    constructor
    · have hw := hG.serial p harr
      exact hmem hanswers ⟨p.1, p.2, rfl, hw, hreq,
        hG.writer _ (List.mem_of_getElem? hw) _ hreq, hreply⟩
    · refine hmem hpast fun q hq hin => ?_
      cases hq
      rw [htail, hps, List.tail_cons] at hin
      have hnd := hG.nodup
      rw [hps, List.map_cons, List.nodup_cons] at hnd
      exact hnd.1 (List.mem_map_of_mem hin)
    · rw [hdone, List.map_append, List.map_singleton, List.nodup_append]
      refine ⟨hS.lines, List.nodup_singleton _, fun x hx y hy he => ?_⟩
      obtain ⟨d, hd, rfl⟩ := List.mem_map.mp hx
      rw [List.mem_singleton.mp hy] at he
      exact hS.past d hd p he harr
    · rw [hdone, List.map_append, List.map_singleton, List.nodup_append]
      refine ⟨hS.ids, List.nodup_singleton _, fun x hx y hy he => ?_⟩
      obtain ⟨d, hd, rfl⟩ := List.mem_map.mp hx
      -- the channel of a request that is completed is not empty any more
      have hempty := hI.slot req hin
      rw [← List.mem_singleton.mp hy, ← he, hS.filled d hd] at hempty
      cases hempty
    · exact hmem (fun d hd => (hS.filled_step hI h hd).1) hslot
    · exact hmem (fun d hd => (hS.filled_step hI h hd).2)
        ((h.kind_eq (hI.known req hin)).trans (hK req hin))
    · exact fun id hid => hS.fresh_step hI h hid
    · refine fun id r' => hS.slot_step h hold fun l' req' r'' hl hc => ?_
      rw [hread] at hl
      cases hl
      rw [hcomp] at hc
      cases hc
      exact ⟨_, hdone ▸ List.mem_append_right _ (List.mem_singleton_self _), rfl, rfl⟩
    · exact fun id r' => hS.returned_step h hold

end Settled

end EasyTierMac.Wire
