import EasyTierMac.Wire.Streams
import EasyTierMac.Bridge.Replies
import Mathlib.Data.List.Perm.Subperm

/-!
# One request at a time, and one answer to it

While the client has its socket, what the other side owes it is one request at most, the one
it is asking (`Linked.owed`): the command line is on its way, or the supervisor is processing
it, or the answer is on its way. Every other line that comes is the reply to the hello, which
comes first (`Linked.greets_once`), or a push, which completes nothing.
-/

namespace EasyTierMac.Wire

open Framing (IsFrame)
open Supervisor (ConnId Sys ReadLine Serving Served)
open Bridge (Client Request Reply started lineRead completes Heard lineEvent dispatchEvent)

variable {env : Env} {s : Link}

/-! ## The invariant -/

/-- The hello has not been answered. -/
def early : Serving → Bool
  | .screening | .greeting => true
  | _ => false

/-- How far the supervisor's end is. -/
def Link.serving (s : Link) : Serving := (s.sup.conns s.conn).pc.serving

/-- The reply to the hello, if the client has not read it yet. -/
def Link.greets (s : Link) : List (Written × Nat) :=
  s.arriving.filter fun p => p.1.request.isNone && !p.1.ev.isPush

/-- What the client waits for. -/
def Link.owed (s : Link) : List Request :=
  s.inbox ++ (s.handling.toList ++ s.arriving.filterMap fun p => p.1.request)

/-- The first line, while it has not been read. -/
def helloLines (env : Env) (takeover : Bool) : Serving → List (List UInt8)
  | .screening => [env.cmdLine (.hello Bridge.PROTO_VERSION takeover)]
  | _ => []

structure Linked (env : Env) (s : Link) : Prop where
  known : s.conn < s.sup.nConns
  uplink : s.serving ≠ .over → ∃ takeover, Uplink (s.sup.conns s.conn) s.up
    (helloLines env takeover s.serving ++ s.inbox.map fun req => env.cmdLine req.cmd)
  downlink : Downlink s.client.stream s.down (s.arriving.map fun p => env.eventLine p.1.ev)
  handling : s.handling.isSome = true ↔ s.serving = .handling
  owed : s.owed.Subperm s.client.asking
  greets_early : early s.serving = true → s.greets = []
  greets_once : s.greets.length ≤ 1
  session : s.client.driver.inSession = true → s.greets = [] ∧ early s.serving = false

/-! ## What the supervisor says and reads -/

variable {a : Supervisor.Action} {sup : Sys}

theorem said_nil (h : (sup.conns s.conn).out = (s.sup.conns s.conn).out) : s.said a sup = [] := by
  unfold Link.said
  rw [h, List.drop_length]
  rfl

theorem said_one {l : Supervisor.Line}
    (h : (sup.conns s.conn).out = (s.sup.conns s.conn).out ++ [l]) :
    s.said a sup = [⟨l.ev, if Link.own s.conn a then s.handling else none⟩] := by
  unfold Link.said
  rw [h, List.drop_left]
  rfl

theorem own_eq {c : ConnId} (h : Link.own c a = true) : ∃ ans, a = .conn c ans := by
  unfold Link.own at h
  split at h
  · exact ⟨_, by rw [eq_of_beq h]⟩
  · cases h

theorem taken_none
    (h : s.serving ≠ .loop ∨ (sup.conns s.conn).pc.serving ≠ .handling) : s.taken sup = none := by
  unfold Link.taken
  rw [if_neg]
  rintro ⟨hw, hn⟩
  exact h.elim (fun hne => hne hw) fun hne => hne hn

theorem taken_some (hw : s.serving = .loop) (hn : (sup.conns s.conn).pc.serving = .handling)
    {l : Rust.Text} {rest : List UInt8} (hline : s.sup.readLine s.conn = some (.line l, rest)) :
    s.taken sup = some l := by
  unfold Link.taken
  rw [if_pos ⟨hw, hn⟩, hline]

namespace Linked

theorem handling_none (hL : Linked env s) (h : s.serving ≠ .handling) : s.handling = none := by
  cases hh : s.handling with
  | none => rfl
  | some req => exact absurd (hL.handling.mp (by rw [hh]; rfl)) h

/-- The supervisor's end stays where it is. -/
theorem keep (hL : Linked env s) (hn : s.sup.nConns ≤ sup.nConns)
    (hserv : (sup.conns s.conn).pc.serving = s.serving)
    (hup : ∀ {lines}, Uplink (s.sup.conns s.conn) s.up lines →
      Uplink (sup.conns s.conn) s.up lines) : Linked env { s with sup } where
  known := Nat.lt_of_lt_of_le hL.known hn
  uplink hne := by
    have hserv' : Link.serving { s with sup } = s.serving := hserv
    rw [hserv'] at hne ⊢
    obtain ⟨takeover, h⟩ := hL.uplink hne
    exact ⟨takeover, hup h⟩
  downlink := hL.downlink
  handling := hL.handling.trans (by rw [← hserv]; rfl)
  owed := hL.owed
  greets_early he := hL.greets_early (hserv ▸ he)
  greets_once := hL.greets_once
  session hs := by
    obtain ⟨hg, he⟩ := hL.session hs
    exact ⟨hg, (congrArg early hserv).trans he⟩

/-- The command lines that the client writes are good lines. -/
theorem lines_good (hJ : Json env) (takeover : Bool) (serving : Serving) (inbox : List Request) :
    ∀ f ∈ helloLines env takeover serving ++ inbox.map fun req => env.cmdLine req.cmd,
      GoodLine f := by
  intro f hf
  rcases List.mem_append.mp hf with hf | hf
  · cases serving with
    | screening => exact List.mem_singleton.mp hf ▸ hJ.cmdLine_good _
    | _ => cases hf
  · obtain ⟨req, -, rfl⟩ := List.mem_map.mp hf
    exact hJ.cmdLine_good _

end Linked

/-- A line is written to the client. -/
def Link.say (env : Env) (s : Link) (w : Written) : Link :=
  { s with
    down := s.down ++ env.eventLine w.ev
    written := s.written ++ [w]
    arriving := s.arriving ++ [(w, s.written.length)] }

/-- Nothing is said or read. -/
theorem supDo_silent (hout : (sup.conns s.conn).out = (s.sup.conns s.conn).out)
    (hserv : s.serving ≠ .loop ∨ (sup.conns s.conn).pc.serving ≠ .handling) :
    s.supDo env a sup = { s with
      sup
      handling := if (sup.conns s.conn).pc.serving = .handling then s.handling else none } := by
  unfold Link.supDo
  simp [said_nil hout, taken_none hserv]

theorem supDo_say {w : Written} (hsaid : s.said a sup = [w])
    (hserv : s.serving ≠ .loop ∨ (sup.conns s.conn).pc.serving ≠ .handling) :
    s.supDo env a sup = { s.say env w with
      sup
      handling := if (sup.conns s.conn).pc.serving = .handling then s.handling else none } := by
  unfold Link.supDo Link.say
  simp [hsaid, taken_none hserv]

theorem greets_say (w : Written) :
    (s.say env w).greets = s.greets ++ [(w, s.written.length)].filter fun p =>
      p.1.request.isNone && !p.1.ev.isPush :=
  List.filter_append ..

namespace Linked

theorem downlink_say (hL : Linked env s) (hJ : Json env) (w : Written) :
    Downlink s.client.stream (s.say env w).down
      ((s.say env w).arriving.map fun p => env.eventLine p.1.ev) := by
  have hwrite := hL.downlink.write (hJ.eventLine_frame w.ev).ne_nil
  unfold Link.say
  rw [List.map_append]
  exact hwrite

/-- A push is written. -/
theorem push (hL : Linked env s) (hJ : Json env) (hn : s.sup.nConns ≤ sup.nConns)
    (hserv : (sup.conns s.conn).pc.serving = s.serving) {ev : Supervisor.Event}
    (hev : ev.isPush = true)
    (hup : ∀ {lines}, Uplink (s.sup.conns s.conn) s.up lines →
      Uplink (sup.conns s.conn) s.up lines) :
    Linked env { s.say env ⟨ev, none⟩ with sup } where
  known := Nat.lt_of_lt_of_le hL.known hn
  uplink hne := by
    have hserv' : Link.serving { s.say env ⟨ev, none⟩ with sup } = s.serving := hserv
    rw [hserv'] at hne ⊢
    obtain ⟨takeover, h⟩ := hL.uplink hne
    exact ⟨takeover, hup h⟩
  downlink := hL.downlink_say hJ _
  handling := hL.handling.trans (by rw [← hserv]; rfl)
  owed := by
    refine (List.Perm.subperm ?_).trans hL.owed
    simp [Link.owed, Link.say]
  greets_early he := by
    show (s.say env ⟨ev, none⟩).greets = []
    rw [greets_say, hL.greets_early (hserv ▸ he)]
    simp [hev]
  greets_once := by
    show (s.say env ⟨ev, none⟩).greets.length ≤ 1
    rw [greets_say]
    simpa [hev] using hL.greets_once
  session hs := by
    obtain ⟨hg, he⟩ := hL.session hs
    refine ⟨?_, (congrArg early hserv).trans he⟩
    show (s.say env ⟨ev, none⟩).greets = []
    rw [greets_say, hg]
    simp [hev]

/-- The first line is answered. -/
theorem greet (hL : Linked env s) (hJ : Json env) (hn : s.sup.nConns ≤ sup.nConns)
    (hwas : s.serving = .greeting)
    (hserv : (sup.conns s.conn).pc.serving = .loop ∨ (sup.conns s.conn).pc.serving = .over)
    (ev : Supervisor.Event)
    (hup : ∀ {lines}, Uplink (s.sup.conns s.conn) s.up lines →
      Uplink (sup.conns s.conn) s.up lines) :
    Linked env { s.say env ⟨ev, none⟩ with sup, handling := none } where
  known := Nat.lt_of_lt_of_le hL.known hn
  uplink hne := by
    have hserv' : Link.serving { s.say env ⟨ev, none⟩ with sup, handling := none } = .loop :=
      hserv.resolve_right hne
    rw [hserv']
    obtain ⟨takeover, h⟩ := hL.uplink (by rw [hwas]; exact Serving.noConfusion)
    rw [hwas] at h
    exact ⟨takeover, hup h⟩
  downlink := hL.downlink_say hJ _
  handling := by
    refine ⟨fun h => (nomatch h), fun h => ?_⟩
    have hserv' : (sup.conns s.conn).pc.serving = .handling := h
    rw [hserv'] at hserv
    rcases hserv with h | h <;> cases h
  owed := by
    have hnone := hL.handling_none (by rw [hwas]; exact Serving.noConfusion)
    refine (List.Perm.subperm ?_).trans hL.owed
    simp [Link.owed, Link.say, hnone]
  greets_early he := by
    have he' : early (sup.conns s.conn).pc.serving = true := he
    rcases hserv with h | h <;>
    · rw [h] at he'
      cases he'
  greets_once := by
    show (s.say env ⟨ev, none⟩).greets.length ≤ 1
    rw [greets_say, hL.greets_early (by rw [hwas]; rfl), List.nil_append]
    exact List.length_filter_le _ _
  session hs := by
    obtain ⟨-, he⟩ := hL.session hs
    rw [hwas] at he
    cases he

/-- The command loop answers the line that it has read. -/
theorem reply (hL : Linked env s) (hJ : Json env) (hn : s.sup.nConns ≤ sup.nConns)
    (hwas : s.serving = .handling) (hserv : (sup.conns s.conn).pc.serving = .loop)
    (ev : Supervisor.Event)
    (hup : ∀ {lines}, Uplink (s.sup.conns s.conn) s.up lines →
      Uplink (sup.conns s.conn) s.up lines) :
    Linked env { s.say env ⟨ev, s.handling⟩ with sup, handling := none } := by
  obtain ⟨req, hreq⟩ := Option.isSome_iff_exists.mp (hL.handling.mpr hwas)
  have hgreets : (s.say env ⟨ev, s.handling⟩).greets = s.greets := by
    rw [greets_say, hreq]
    simp
  constructor
  · exact Nat.lt_of_lt_of_le hL.known hn
  · intro _
    have hserv' : Link.serving { s.say env ⟨ev, s.handling⟩ with sup, handling := none } = .loop :=
      hserv
    rw [hserv']
    obtain ⟨takeover, h⟩ := hL.uplink (by rw [hwas]; exact Serving.noConfusion)
    rw [hwas] at h
    exact ⟨takeover, hup h⟩
  · exact hL.downlink_say hJ _
  · refine ⟨fun h => (nomatch h), fun h => ?_⟩
    cases hserv.symm.trans h
  · -- the request moves from the supervisor to the answer
    refine (List.Perm.subperm ?_).trans hL.owed
    simp only [Link.owed, Link.say, hreq, Option.toList_some, Option.toList_none, List.nil_append,
      List.filterMap_append, List.filterMap_cons, List.filterMap_nil]
    exact (List.perm_append_singleton _ _).append_left _
  · intro he
    have he' : early (sup.conns s.conn).pc.serving = true := he
    rw [hserv] at he'
    cases he'
  · exact (congrArg List.length hgreets).trans_le hL.greets_once
  · intro hs
    exact ⟨hgreets.trans (hL.session hs).1, congrArg early hserv⟩

/-- Where the supervisor's end stays where it is, so does the request that it handles. -/
theorem handling_kept (hL : Linked env s) (hserv : (sup.conns s.conn).pc.serving = s.serving) :
    (if (sup.conns s.conn).pc.serving = .handling then s.handling else none) = s.handling := by
  rw [hserv]
  split
  · rfl
  · next hne => exact (hL.handling_none hne).symm

/-- Nothing is said, and the supervisor's end stays where it is. -/
theorem supDo_quiet (hL : Linked env s)
    (hserv : (sup.conns s.conn).pc.serving = s.serving)
    (hout : (sup.conns s.conn).out = (s.sup.conns s.conn).out) :
    s.supDo env a sup = { s with sup } := by
  rw [supDo_silent hout, hL.handling_kept hserv]
  by_cases hw : s.serving = .loop
  · exact .inr (by rw [hserv, hw]; exact Serving.noConfusion)
  · exact .inl hw

/-- The first line is read. -/
theorem first (hL : Linked env s) (hJ : Json env) (hn : s.sup.nConns ≤ sup.nConns)
    (hwas : s.serving = .screening) (hserv : (sup.conns s.conn).pc.serving = .greeting)
    {rl : ReadLine} {rest : List UInt8} (hline : s.sup.readLine s.conn = some (rl, rest))
    (hbuf : (sup.conns s.conn).buf = rest)
    (hsock : (sup.conns s.conn).sock = (s.sup.conns s.conn).sock)
    (hclosed : (sup.conns s.conn).closed = (s.sup.conns s.conn).closed) :
    Linked env { s with sup, handling := none } where
  known := Nat.lt_of_lt_of_le hL.known hn
  uplink hne := by
    have hserv' : Link.serving { s with sup, handling := none } = .greeting := hserv
    rw [hserv']
    obtain ⟨takeover, h⟩ := hL.uplink (by rw [hwas]; exact Serving.noConfusion)
    rw [hwas] at h
    refine ⟨takeover, ?_⟩
    rcases h.read (lines_good hJ takeover .screening s.inbox) hline hbuf hsock hclosed with
      ⟨f, fs, t, hlines, -, -, hup⟩ | ⟨-, hup⟩
    · injection hlines with _ hfs
      rw [← hfs] at hup
      exact hup
    · exact hup _
  downlink := hL.downlink
  handling := by
    refine ⟨fun h => (nomatch h), fun h => ?_⟩
    cases hserv.symm.trans h
  owed := by
    have hnone := hL.handling_none (by rw [hwas]; exact Serving.noConfusion)
    refine (List.Perm.subperm ?_).trans hL.owed
    simp [Link.owed, hnone]
  greets_early _ := hL.greets_early (by rw [hwas]; rfl)
  greets_once := hL.greets_once
  session hs := by
    have he := (hL.session hs).2
    rw [hwas] at he
    cases he

/-- The connection is left. -/
theorem leave (hL : Linked env s) (hn : s.sup.nConns ≤ sup.nConns)
    (hwas : s.serving ≠ .handling) (hserv : (sup.conns s.conn).pc.serving = .over) :
    Linked env { s with sup, handling := none } where
  known := Nat.lt_of_lt_of_le hL.known hn
  uplink hne := absurd hserv hne
  downlink := hL.downlink
  handling := by
    refine ⟨fun h => (nomatch h), fun h => ?_⟩
    cases hserv.symm.trans h
  owed := by
    refine (List.Perm.subperm ?_).trans hL.owed
    simp [Link.owed, hL.handling_none hwas]
  greets_early he := by
    have he' : early (sup.conns s.conn).pc.serving = true := he
    rw [hserv] at he'
    cases he'
  greets_once := hL.greets_once
  session hs := ⟨(hL.session hs).1, congrArg early hserv⟩

/-- The text of the next command line. -/
theorem next_line (hL : Linked env s) (hJ : Json env) (hwas : s.serving = .loop)
    {l : Rust.Text} {rest : List UInt8} (hline : s.sup.readLine s.conn = some (.line l, rest))
    (hbuf : (sup.conns s.conn).buf = rest)
    (hsock : (sup.conns s.conn).sock = (s.sup.conns s.conn).sock)
    (hclosed : (sup.conns s.conn).closed = (s.sup.conns s.conn).closed) :
    ∃ req inbox, s.inbox = req :: inbox ∧ l = Bridge.encodeCmd env.client.codec req.cmd ∧
      Uplink (sup.conns s.conn) s.up (inbox.map fun req => env.cmdLine req.cmd) := by
  obtain ⟨takeover, h⟩ := hL.uplink (by rw [hwas]; exact Serving.noConfusion)
  rw [hwas] at h
  rcases h.read (lines_good hJ takeover .loop s.inbox) hline hbuf hsock hclosed with
    ⟨f, fs, t, hlines, ht, hrl, hup⟩ | ⟨hnone, -⟩
  · have hmap : s.inbox.map (fun req => env.cmdLine req.cmd) = f :: fs := hlines
    obtain ⟨req, inbox, hinbox, rfl, rfl⟩ := List.map_eq_cons_iff.mp hmap
    rw [env.fromUtf8_cmdLine] at ht
    cases ht
    cases hrl
    exact ⟨req, inbox, hinbox, rfl, hup⟩
  · exact absurd rfl (hnone l)

/-- The command loop reads a line. -/
theorem take (hL : Linked env s) (hn : s.sup.nConns ≤ sup.nConns) (hwas : s.serving = .loop)
    (hserv : (sup.conns s.conn).pc.serving = .handling) {req : Request} {inbox : List Request}
    (hinbox : s.inbox = req :: inbox)
    (hup : Uplink (sup.conns s.conn) s.up (inbox.map fun req => env.cmdLine req.cmd))
    (reads : List (Option Request × Rust.Text)) :
    Linked env { s with sup, inbox, handling := some req, reads } where
  known := Nat.lt_of_lt_of_le hL.known hn
  uplink hne := by
    have hserv' : Link.serving { s with sup, inbox, handling := some req, reads } = .handling :=
      hserv
    rw [hserv']
    exact ⟨false, hup⟩
  downlink := hL.downlink
  handling := ⟨fun _ => hserv, fun _ => rfl⟩
  owed := by
    -- the request moves from the command line to the supervisor
    have hnone := hL.handling_none (by rw [hwas]; exact Serving.noConfusion)
    refine (List.Perm.subperm ?_).trans hL.owed
    simp only [Link.owed, hinbox, hnone, Option.toList_some, Option.toList_none, List.nil_append,
      List.cons_append]
    exact List.perm_middle
  greets_early he := by
    have he' : early (sup.conns s.conn).pc.serving = true := he
    rw [hserv] at he'
    cases he'
  greets_once := hL.greets_once
  session hs := ⟨(hL.session hs).1, congrArg early hserv⟩

/-- **A step of the supervisor** keeps the invariant, and a line that it reads is the
next command line. -/
theorem served (hL : Linked env s) (hJ : Json env) (hn : s.sup.nConns ≤ sup.nConns)
    (hfeed : feeds s.conn a = false) (h : Served s.sup s.conn a (sup.conns s.conn)) :
    Linked env (s.supDo env a sup) ∧ ∀ l, s.taken sup = some l →
      ∃ req, s.inbox.head? = some req ∧ l = Bridge.encodeCmd env.client.codec req.cmd := by
  -- in every case but one no line is read
  have hnone (hserv : s.serving ≠ .loop ∨ (sup.conns s.conn).pc.serving ≠ .handling)
      (hL' : Linked env (s.supDo env a sup)) : Linked env (s.supDo env a sup) ∧
        ∀ l, s.taken sup = some l →
          ∃ req, s.inbox.head? = some req ∧ l = Bridge.encodeCmd env.client.codec req.cmd := by
    refine ⟨hL', fun l hl => ?_⟩
    rw [taken_none hserv] at hl
    cases hl
  have hsame (hserv : (sup.conns s.conn).pc.serving = s.serving) :
      s.serving ≠ .loop ∨ (sup.conns s.conn).pc.serving ≠ .handling := by
    rw [hserv]
    by_cases hw : s.serving = .loop
    · exact .inr (by rw [hw]; exact Serving.noConfusion)
    · exact .inl hw
  cases h with
  | quiet hserv hout hin hclosed =>
    refine hnone (hsame hserv) ?_
    rw [hL.supDo_quiet hserv hout]
    exact hL.keep hn hserv fun hup => hup.keep hin hclosed
  | arrive hact =>
    subst hact
    rw [feeds, beq_self_eq_true] at hfeed
    cases hfeed
  | close sock hcut hserv hout hbuf hsock hclosed =>
    refine hnone (hsame hserv) ?_
    rw [hL.supDo_quiet hserv hout]
    exact hL.keep hn hserv fun hup => hup.close hcut hbuf hsock hclosed
  | @push l hpush hown hserv hout hbuf hsock hclosed =>
    refine hnone (hsame hserv) ?_
    -- a push of the connection's own thread comes before the command loop
    have hreq : (if Link.own s.conn a = true then s.handling else none) = none := by
      split
      · next ho =>
        obtain ⟨ans, rfl⟩ := own_eq ho
        exact hL.handling_none (by rw [Link.serving, hown ans rfl]; exact Serving.noConfusion)
      · rfl
    rw [supDo_say (said_one hout) (hsame hserv), hreq, hL.handling_kept hserv]
    exact hL.push hJ hn hserv hpush fun hup => hup.keep (by rw [hbuf, hsock]) hclosed
  | first hwas hline hserv hout hbuf hsock hclosed =>
    have hserv' : s.serving ≠ .loop ∨ (sup.conns s.conn).pc.serving ≠ .handling :=
      .inr (by rw [hserv]; exact Serving.noConfusion)
    refine hnone hserv' ?_
    rw [supDo_silent hout hserv', if_neg (by rw [hserv]; exact Serving.noConfusion)]
    exact hL.first hJ hn hwas hserv hline hbuf hsock hclosed
  | @greet l ans hact hwas hserv hout hbuf hsock hclosed =>
    have hserv' : s.serving ≠ .loop ∨ (sup.conns s.conn).pc.serving ≠ .handling :=
      .inl (by rw [Link.serving, hwas]; exact Serving.noConfusion)
    refine hnone hserv' ?_
    have hreq : (if Link.own s.conn a = true then s.handling else none) = none := by
      rw [hL.handling_none (by rw [Link.serving, hwas]; exact Serving.noConfusion), ite_self]
    have hne : (sup.conns s.conn).pc.serving ≠ .handling := by
      rcases hserv with h | h <;>
      · rw [h]
        exact Serving.noConfusion
    rw [supDo_say (said_one hout) hserv', hreq, if_neg hne]
    exact hL.greet hJ hn hwas hserv _ fun hup => hup.keep (by rw [hbuf, hsock]) hclosed
  | @take l rest hwas hline hserv hout hbuf hsock hclosed =>
    obtain ⟨req, inbox, hinbox, hl, hup⟩ := hL.next_line hJ hwas hline hbuf hsock hclosed
    have htaken : s.taken sup = some l := taken_some hwas hserv hline
    constructor
    · have hdo := hL.take hn hwas hserv hinbox hup (s.reads ++ [(some req, l)])
      unfold Link.supDo
      simpa [said_nil hout, htaken, hinbox] using hdo
    · intro l' hl'
      rw [htaken] at hl'
      cases hl'
      exact ⟨req, by rw [hinbox]; rfl, hl⟩
  | @blank l rest hwas hline hempty hserv hout hbuf hsock hclosed =>
    obtain ⟨req, inbox, -, rfl, -⟩ := hL.next_line hJ hwas hline hbuf hsock hclosed
    rw [hJ.cmd_blank] at hempty
    cases hempty
  | @reply l ans hact hwas hserv hout hbuf hsock hclosed =>
    have hwas' : s.serving = .handling := by
      rw [Link.serving, hwas]
      rfl
    have hserv' : s.serving ≠ .loop ∨ (sup.conns s.conn).pc.serving ≠ .handling :=
      .inl (by rw [hwas']; exact Serving.noConfusion)
    refine hnone hserv' ?_
    have hown : Link.own s.conn a = true := by
      rw [hact]
      exact beq_self_eq_true _
    rw [supDo_say (said_one hout) hserv', if_pos hown,
      if_neg (by rw [hserv]; exact Serving.noConfusion)]
    exact hL.reply hJ hn hwas' hserv _ fun hup => hup.keep (by rw [hbuf, hsock]) hclosed
  | leave hwas hserv hout =>
    have hserv' : s.serving ≠ .loop ∨ (sup.conns s.conn).pc.serving ≠ .handling :=
      .inr (by rw [hserv]; exact Serving.noConfusion)
    refine hnone hserv' ?_
    rw [supDo_silent hout hserv', if_neg (by rw [hserv]; exact Serving.noConfusion)]
    refine hL.leave hn ?_ hserv
    rw [Link.serving]
    rcases hwas with h | h <;>
    · rw [h]
      exact Serving.noConfusion

end Linked

/-! ## What the client hears -/

variable {act : Bridge.Action} {client : Client}

/-- A push completes nothing. -/
theorem dispatch_push {ev : Supervisor.Event} (h : ev.isPush = true) (pending : Option Request) :
    (dispatchEvent (mirror ev) pending).pending = pending ∧
      (dispatchEvent (mirror ev) pending).reply = none := by
  cases ev with
  | coreExited | kicked => exact ⟨rfl, rfl⟩
  | _ => cases h

theorem clientDo_quiet (hstart : started s.client client = none)
    (hread : lineRead s.client act = none) : s.clientDo env act client = { s with client } := by
  unfold Link.clientDo
  simp [hstart, hread]

namespace Linked

/-- The client does nothing that concerns the supervisor. -/
theorem hear (hL : Linked env s)
    (hdown : ∀ {lines}, (∀ f ∈ lines, IsFrame 0x0A f) → Downlink s.client.stream s.down lines →
      Downlink client.stream s.down lines) (hJ : Json env)
    (hask : client.asking = s.client.asking)
    (hsession : client.driver.inSession = s.client.driver.inSession) :
    Linked env { s with client } where
  known := hL.known
  uplink := hL.uplink
  downlink := by
    refine hdown (fun f hf => ?_) hL.downlink
    obtain ⟨p, -, rfl⟩ := List.mem_map.mp hf
    exact hJ.eventLine_frame _
  handling := hL.handling
  owed := by
    show s.owed.Subperm client.asking
    rw [hask]
    exact hL.owed
  greets_early := hL.greets_early
  greets_once := hL.greets_once
  session hs := hL.session (hsession ▸ hs)

/-- The command of a request is written. -/
theorem ask (hL : Linked env s) {req : Request} (hstream : client.stream = s.client.stream.cut)
    (hidle : s.client.asking = []) (hask : client.asking = [req])
    (hsession : s.client.driver.inSession = true) :
    Linked env { s with
      client
      up := s.up ++ env.cmdLine req.cmd
      inbox := s.inbox ++ [req] } where
  known := hL.known
  uplink hne := by
    obtain ⟨takeover, h⟩ := hL.uplink hne
    refine ⟨takeover, ?_⟩
    rw [List.map_append, ← List.append_assoc]
    exact h.write _
  downlink := by
    show Downlink client.stream _ _
    rw [hstream]
    exact hL.downlink.cut
  handling := hL.handling
  owed := by
    have howed : s.owed = [] := by
      have h := hL.owed
      rw [hidle] at h
      exact List.subperm_nil.mp h
    obtain ⟨hinbox, hrest⟩ := List.append_eq_nil_iff.mp howed
    show List.Subperm (s.inbox ++ [req] ++ _) client.asking
    rw [hask, hinbox, hrest]
    exact List.Subperm.refl _
  greets_early := hL.greets_early
  greets_once := hL.greets_once
  session _ := hL.session hsession

/-- What the client reads is a part of the first line that comes. -/
theorem pop (hL : Linked env s) (hJ : Json env) {l : List UInt8} {st : Bridge.Stream}
    (hl : l ≠ []) (hpoll : s.client.stream.poll = some (some l, st)) :
    ∃ p ps before after, s.arriving = p :: ps ∧ env.eventLine p.1.ev = before ++ (l ++ after) ∧
      Downlink st s.down (ps.map fun p => env.eventLine p.1.ev) := by
  have hframes : ∀ f ∈ s.arriving.map fun p => env.eventLine p.1.ev, IsFrame 0x0A f := by
    intro f hf
    obtain ⟨p, -, rfl⟩ := List.mem_map.mp hf
    exact hJ.eventLine_frame _
  obtain ⟨before, after, fs, hlines, hdown⟩ := hL.downlink.read hframes hl hpoll
  obtain ⟨p, ps, hps, hp, rfl⟩ := List.map_eq_cons_iff.mp hlines
  exact ⟨p, ps, before, after, hps, hp, hdown⟩

/-- In a session, a line that answers no request is a push. -/
theorem isPush_of_none (hL : Linked env s) (hs : s.client.driver.inSession = true)
    {p : Written × Nat} {ps : List (Written × Nat)} (hps : s.arriving = p :: ps)
    (hp : p.1.request = none) : p.1.ev.isPush = true := by
  have hg := (hL.session hs).1
  unfold Link.greets at hg
  rw [hps, List.filter_eq_nil_iff] at hg
  have hpg := hg p List.mem_cons_self
  simpa [hp] using hpg

/-- The request that the first line that comes answers is the one that the client asks. -/
theorem mem_asking (hL : Linked env s) {p : Written × Nat} {ps : List (Written × Nat)}
    (hps : s.arriving = p :: ps) {req : Request} (hp : p.1.request = some req) :
    req ∈ s.client.asking := by
  refine hL.owed.subset ?_
  unfold Link.owed
  simp [hps, hp]

/-- **The answer.** The line that completes a request was written for it. -/
theorem answered (hL : Linked env s) (hJ : Json env) {l : List UInt8} {req : Request} {r : Reply}
    {st : Bridge.Stream} (hl : l ≠ []) (hpoll : s.client.stream.poll = some (some l, st))
    (hdone : completes env.client.codec s.client l = some (req, r)) :
    ∃ p, s.arriving.head? = some p ∧ p.1.request = some req ∧
      (dispatchEvent (mirror p.1.ev) (some req)).reply = some (req, r) := by
  obtain ⟨p, ps, before, after, hps, hline, -⟩ := hL.pop hJ hl hpoll
  unfold completes at hdone
  split at hdone
  · next hd =>
    obtain ⟨ev, hev, hreply⟩ := Option.bind_eq_some_iff.mp hdone
    obtain ⟨-, rfl⟩ := hJ.event_part hline hev
    have hpend : s.client.pending = some req := by
      rcases Bridge.dispatchEvent_cases (mirror p.1.ev) s.client.pending with
        ⟨-, hr⟩ | ⟨req', r', hp, -, hr⟩
      · rw [hr] at hreply
        cases hreply
      · rw [hr] at hreply
        cases hreply
        exact hp
    refine ⟨p, by rw [hps]; rfl, ?_, hpend ▸ hreply⟩
    cases hreq : p.1.request with
    | none =>
      have hpush := hL.isPush_of_none (by rw [hd]; rfl) hps hreq
      rw [(dispatch_push hpush _).2] at hreply
      cases hreply
    | some req' =>
      have hmem := hL.mem_asking hps hreq
      rw [Bridge.Client.asking_session hd, hpend, Option.toList_some, List.mem_singleton] at hmem
      rw [hmem]
  · cases hdone

/-- What comes after the first line. -/
theorem owed_cons {p : Written × Nat} {ps : List (Written × Nat)} (hps : s.arriving = p :: ps) :
    s.owed.Perm (p.1.request.toList ++ Link.owed { s with arriving := ps }) := by
  unfold Link.owed
  rw [hps]
  cases hp : p.1.request with
  | none => simp [hp]
  | some req =>
    have hcons : (p :: ps).filterMap (fun p => p.1.request) =
        req :: ps.filterMap fun p => p.1.request := by simp [hp]
    rw [hcons, ← List.append_assoc, ← List.append_assoc s.inbox]
    exact List.perm_middle

/-- The reply to the hello is read, and the session begins. -/
theorem greeted (hL : Linked env s) (hJ : Json env) {p : Written × Nat}
    {ps : List (Written × Nat)} (hps : s.arriving = p :: ps) {before l after : List UInt8}
    (hline : env.eventLine p.1.ev = before ++ (l ++ after))
    (hdown : Downlink client.stream s.down (ps.map fun p => env.eventLine p.1.ev))
    {ev : Bridge.Event} (hev : lineEvent env.client.codec l = some ev)
    (hhello : ∃ proto version core rpcPort, ev = .hello proto version core rpcPort)
    (hidle : s.client.asking = []) : Linked env { s with client, arriving := ps } := by
  obtain ⟨proto, version, core, rpcPort, rfl⟩ := hhello
  obtain ⟨-, hmirror⟩ := hJ.event_part hline hev
  have hpush : p.1.ev.isPush = false := by
    cases he : p.1.ev with
    | coreExited | kicked =>
      rw [he] at hmirror
      cases hmirror
    | _ => rfl
  have howed : s.owed = [] := by
    have h := hL.owed
    rw [hidle] at h
    exact List.subperm_nil.mp h
  obtain ⟨hreq, howed'⟩ := List.append_eq_nil_iff.mp (howed ▸ owed_cons hps).nil_eq.symm
  have hnone : p.1.request = none := by simpa using hreq
  -- the line is the reply to the hello, and there is no other
  have hgreets : s.greets = p :: ps.filter fun p => p.1.request.isNone && !p.1.ev.isPush := by
    unfold Link.greets
    rw [hps, List.filter_cons_of_pos (by simp [hnone, hpush])]
  have hrest : Link.greets { s with client, arriving := ps } = [] := by
    have h := hL.greets_once
    rw [hgreets, List.length_cons] at h
    exact List.eq_nil_of_length_eq_zero (Nat.le_zero.mp (Nat.le_of_succ_le_succ h))
  have hlate : early s.serving = false := by
    cases he : early s.serving with
    | false => rfl
    | true =>
      have h := hL.greets_early he
      rw [hgreets] at h
      cases h
  constructor
  · exact hL.known
  · exact hL.uplink
  · exact hdown
  · exact hL.handling
  · show (Link.owed { s with arriving := ps }).Subperm client.asking
    rw [howed']
    exact List.nil_subperm
  · exact fun _ => hrest
  · rw [hrest]
    exact Nat.zero_le 1
  · exact fun _ => ⟨hrest, hlate⟩

/-- The session reads a line. -/
theorem line (hL : Linked env s) (hJ : Json env) {p : Written × Nat} {ps : List (Written × Nat)}
    (hps : s.arriving = p :: ps) {before l after : List UInt8}
    (hline : env.eventLine p.1.ev = before ++ (l ++ after))
    (hdown : Downlink client.stream s.down (ps.map fun p => env.eventLine p.1.ev))
    (hd : s.client.driver = .session)
    (hask : client.asking = match lineEvent env.client.codec l with
      | some ev => (dispatchEvent ev s.client.pending).pending.toList
      | none => s.client.asking) :
    Linked env { s with client, arriving := ps } := by
  have hs : s.client.driver.inSession = true := by
    rw [hd]
    rfl
  obtain ⟨hgreets, hlate⟩ := hL.session hs
  have hrest : Link.greets { s with client, arriving := ps } = [] := by
    unfold Link.greets at hgreets ⊢
    rw [hps, List.filter_eq_nil_iff] at hgreets
    rw [List.filter_eq_nil_iff]
    exact fun q hq => hgreets q (List.mem_cons_of_mem p hq)
  have hsub : (Link.owed { s with arriving := ps }).Subperm s.client.asking :=
    ((List.sublist_append_right ..).subperm.trans (owed_cons hps).symm.subperm).trans hL.owed
  have howed : (Link.owed { s with arriving := ps }).Subperm client.asking := by
    rw [hask]
    cases hev : lineEvent env.client.codec l with
    | none => exact hsub
    | some ev =>
      obtain ⟨-, rfl⟩ := hJ.event_part hline hev
      dsimp only
      rcases Bridge.dispatchEvent_cases (mirror p.1.ev) s.client.pending with
        ⟨hp, -⟩ | ⟨req, r, hpend, hp, hr⟩
      · rw [hp, ← Bridge.Client.asking_session hd]
        exact hsub
      · rw [hp]
        -- the request is completed by the line that answers it, and nothing else is owed
        have hlen := (hL.owed.length_le).trans_eq
          (congrArg List.length (Bridge.Client.asking_session hd))
        rw [hpend, Option.toList_some, List.length_singleton, (owed_cons hps).length_eq] at hlen
        cases hreq : p.1.request with
        | none =>
          have hpush := hL.isPush_of_none hs hps hreq
          rw [(dispatch_push hpush _).2] at hr
          cases hr
        | some req' =>
          rw [hreq, Option.toList_some, List.singleton_append, List.length_cons] at hlen
          rw [List.eq_nil_of_length_eq_zero (Nat.le_zero.mp (Nat.le_of_succ_le_succ hlen))]
          exact List.nil_subperm
  constructor
  · exact hL.known
  · exact hL.uplink
  · exact hdown
  · exact hL.handling
  · exact howed
  · exact fun _ => hrest
  · rw [hrest]
    exact Nat.zero_le 1
  · exact fun _ => ⟨hrest, hlate⟩

theorem of_done (hL : Linked env s) (done : List Completion) : Linked env { s with done } :=
  ⟨hL.known, hL.uplink, hL.downlink, hL.handling, hL.owed, hL.greets_early, hL.greets_once,
    hL.session⟩

/-- **A step of the client** that keeps its socket keeps the invariant. -/
theorem heard (hL : Linked env s) (hJ : Json env) (hsock : client.hasSocket = true)
    (h : Heard env.client s.client act client) : Linked env (s.clientDo env act client) := by
  cases h with
  | gone hgone =>
    rw [hgone] at hsock
    cases hsock
  | quiet _ hstart hread hsession hask hheld hun hclosed =>
    rw [clientDo_quiet hstart hread]
    exact hL.hear (fun _ hdown => hdown.keep hheld hun hclosed) hJ hask hsession
  | hold _ hstart hread hsession hask hpoll =>
    rw [clientDo_quiet hstart hread]
    exact hL.hear (fun hframes hdown => hdown.hold hframes hpoll) hJ hask hsession
  | refuse _ hstart hread hsession hask hstream =>
    rw [clientDo_quiet hstart hread]
    exact hL.hear (fun _ hdown => hstream ▸ hdown.cut) hJ hask hsession
  | @ask req _ hstart hread hsession _ hidle hask hstream =>
    have hdo := (hL.ask hstream hidle hask hsession).of_done s.done
    unfold Link.clientDo
    simpa [hstart, hread] using hdo
  | @greeted l ev _ hstart hread hpoll hdone hev hhello _ hidle =>
    obtain ⟨p, ps, before, after, hps, hline, hdown⟩ :=
      hL.pop hJ (Bridge.poll_of_lineRead hread).1 hpoll
    have hdo := (hL.greeted hJ hps hline hdown hev hhello hidle).of_done s.done
    unfold Link.clientDo
    simpa [hstart, hread, hps, hdone] using hdo
  | @line l _ hstart hread hpoll hd _ hask =>
    obtain ⟨p, ps, before, after, hps, hline, hdown⟩ :=
      hL.pop hJ (Bridge.poll_of_lineRead hread).1 hpoll
    have hdo := hL.line hJ hps hline hdown hd hask
    unfold Link.clientDo
    simpa [hstart, hread, hps] using hdo.of_done _

end Linked

end EasyTierMac.Wire
