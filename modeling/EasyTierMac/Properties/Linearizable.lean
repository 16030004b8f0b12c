import EasyTierMac.Supervisor.CoreObject

/-!
# The commands of all clients take effect one after the other

Connections run at the same time, a displaced owner next to a new one, and a command takes many
steps: a core is spawned and its monitor and its hook are started before `core_started` is
written, a `stop` sleeps until a monitor has reaped the core. `commands_linearizable` says that
none of this shows. In every run the log of the commands is a history of the sequential core of
`coreObject`: each reply is what that core answered at one moment between the reading of the
command and the writing of the reply, and the core that the supervisor has is the one that these
moments, in their order, and the exits of cores lead to.
-/

namespace EasyTierMac.Supervisor

open Object (Linearized Legal Phase results)
open Transition (System)

variable {env : Env} {s s' : Sys} {c d : ConnId} {ans : Answer} {l : List CoreEntry}

/-! ## The phases of the others -/

theorem ConnMove.phase_eq (h : ConnMove env s c ans s') (hS : Started s) (hd : d ≠ c) :
    s'.phase d = s.phase d :=
  phase_eq_of_pc (h.of_ne hd).1 hS h.sameIds

theorem MonMove.phase_eq {g : Gen} (h : MonMove env s g ans s') (hS : Started s) :
    s'.phase d = s.phase d := by
  obtain ⟨out, he⟩ := h.conns_eq d
  refine phase_eq_of_pc ?_ hS (Move.monitor h).sameIds
  rw [he]

theorem OtherMove.phase_eq {a : Action} (h : OtherMove env s a s') (hS : Started s)
    (hA : Accepted s) : s'.phase d = s.phase d := by
  rcases h.conns_eq with ⟨uid, hc, -⟩ | ⟨-, hc⟩
  · by_cases hd : d = s.nConns
    · have hpc : (s'.conns d).pc = .auth := by rw [hc, hd, Function.update_self]
      rw [phase_of_pc hpc, phase_of_pc (hA.closed d hd.ge)]
      rfl
    · refine phase_eq_of_pc ?_ hS (Move.other h).sameIds
      rw [hc, Function.update_of_ne hd]
  · obtain ⟨sock, closed, he⟩ := hc d
    refine phase_eq_of_pc ?_ hS (Move.other h).sameIds
    rw [he]

/-- What a step of the supervisor is to the client of connection `c`. -/
theorem Move.commanded_or {a : Action} (h : Move env s a s') (hr : (supervisor env).Reachable s)
    (c : ConnId) : Commanded env s c s' ∨ s'.phase c = s.phase c := by
  have hS := started_of_reachable hr
  cases h with
  | @conn d ans _ h =>
    by_cases hc : c = d
    · subst hc
      exact .inl (h.commanded hS)
    · exact .inr (h.phase_eq hS hc)
  | monitor h => exact .inr (h.phase_eq hS)
  | other h => exact .inr (h.phase_eq hS (Accepted.of_reachable hr))

/-- A core that is no longer there has exited. -/
theorem MonMove.exited_view {g : Gen} (h : MonMove env s g ans s')
    (hne : s'.core.view ≠ s.core.view) : s.core.view.isSome = true ∧ s'.core.view = none := by
  cases hcore' : s'.core with
  | running run =>
    rw [hcore', h.core_running hcore'] at hne
    exact absurd rfl hne
  | stopped =>
    refine ⟨?_, rfl⟩
    cases hcore : s.core with
    | stopped =>
      rw [hcore, hcore'] at hne
      exact absurd rfl hne
    | running run => rfl

/-! ## One step -/

theorem entries_self (c : ConnId) (p : Phase CoreCall Event) : entries c p p = [] := by
  cases p with
  | called k => exact if_pos rfl
  | idle | answered => rfl

theorem entries_perform {k : CoreCall} {out : CoreCall ⊕ Event} (hout : out ≠ .inl k) :
    entries c (.called k) (.of out) = [.perform c k out] := by
  cases out with
  | inl k' =>
    refine if_neg fun hk => hout ?_
    rw [hk]
  | inr r => rfl

/-- The log after a step of a connection. -/
theorem Commanded.linearized (h : Commanded env s c s') (hothers : ∀ d, d ≠ c → s'.phase d = s.phase d)
    (hl : Linearized (coreObject env) l s.core.view s.phase) :
    Linearized (coreObject env) (l ++ entries c (s.phase c) (s'.phase c)) s'.core.view s'.phase := by
  cases h with
  | quiet hcore hphase =>
    rw [hphase, entries_self, List.append_nil]
    refine hl.congr hcore fun d => ?_
    by_cases hd : d = c
    · rw [hd, hphase]
    · exact hothers d hd
  | call hcore hidle hphase =>
    rw [hidle, hphase, hcore]
    exact hl.call hidle hphase hothers
  | @bad code msg hcore hidle hphase =>
    rw [hidle, hphase, hcore]
    show Linearized _ (l ++ ([.call c (.bad code msg)] ++ [.perform c _ (.inr (.error code msg))])) _ _
    rw [← List.append_assoc]
    have hcall : Linearized (coreObject env) (l ++ [.call c (.bad code msg)]) s.core.view
        (Function.update s.phase c (.called (.bad code msg))) :=
      hl.call hidle (Function.update_self ..) fun d hd => Function.update_of_ne hd ..
    refine hcall.perform (.bad) (Function.update_self ..) hphase fun d hd => ?_
    rw [Function.update_of_ne hd, hothers d hd]
  | perform hcalled hout hphase hperform =>
    rw [hcalled, hphase, entries_perform hout]
    exact hl.perform hperform hcalled hphase hothers
  | ret hcore hanswered hphase =>
    rw [hanswered, hphase, hcore]
    exact hl.ret hanswered hphase hothers

theorem results_entries_of_ne (hd : c ≠ d) (p p' : Phase CoreCall Event) :
    results d (entries c p p') = [] := by
  unfold entries
  split
  · rfl
  · rfl
  · split
    · rfl
    · rfl
  · rfl
  · simp [results, hd]
  · rfl

/-- A client gets the line that its connection writes. -/
theorem Commanded.results (h : Commanded env s c s') :
    Object.results c (entries c (s.phase c) (s'.phase c)) = [] ∨
      ∃ l, Object.results c (entries c (s.phase c) (s'.phase c)) = [l.ev] ∧
        (s'.conns c).out = (s.conns c).out ++ [l] := by
  cases h with
  | quiet hcore hphase =>
    rw [hphase, entries_self]
    exact .inl rfl
  | call hcore hidle hphase | bad hcore hidle hphase =>
    rw [hidle, hphase]
    exact .inl rfl
  | perform hcalled hout hphase =>
    rw [hcalled, hphase, entries_perform hout]
    exact .inl rfl
  | @ret l hcore hanswered hphase hout =>
    rw [hanswered, hphase]
    refine .inr ⟨l, ?_, hout⟩
    simp [entries, Object.results]

/-! ## Runs -/

/-- The log explains the state, and the clients have got what it says. -/
structure Explained (env : Env) (s : Sys) (l : List CoreEntry) : Prop where
  linearized : Linearized (coreObject env) l s.core.view s.phase
  /-- The results of a client are lines of its stream. -/
  written : ∀ c, (results c l).Sublist ((s.conns c).out.map Line.ev)
  fresh : ∀ c, s.nConns ≤ c → results c l = []

/-- A stream that grows still has the results in it. -/
theorem written_grows {a : Action} (h : Move env s a s') (hd : d < s.nConns)
    (hw : (results d l).Sublist ((s.conns d).out.map Line.ev)) :
    (results d l).Sublist ((s'.conns d).out.map Line.ev) := by
  rcases h.out_cases d with he | ⟨x, -, he⟩ | ⟨he, -⟩
  · rw [he]
    exact hw
  · rw [he, List.map_append]
    exact hw.trans (List.sublist_append_left _ _)
  · exact absurd he (Nat.ne_of_lt hd)

/-- A step that adds no results. -/
theorem Explained.same {a : Action} {l' : List CoreEntry} (h : Explained env s l)
    (hm : Move env s a s') (hl : Linearized (coreObject env) l' s'.core.view s'.phase)
    (hresults : ∀ c, results c l' = results c l) : Explained env s' l' := by
  refine ⟨hl, fun c => ?_, fun c hc => ?_⟩
  · rw [hresults]
    rcases Nat.lt_or_ge c s.nConns with hlt | hge
    · exact written_grows hm hlt (h.written c)
    · rw [h.fresh c hge]
      exact List.nil_sublist _
  · rw [hresults]
    exact h.fresh c (Nat.le_trans hm.nConns_le hc)

theorem Explained.step {a : Action} (h : Explained env s l) (hr : (supervisor env).Reachable s)
    (hs : step env s a = some s') : Explained env s' (noteCommands env s a l) := by
  have hS := started_of_reachable hr
  have hA := Accepted.of_reachable hr
  have hm := (step_move hs).2
  cases hm with
  | @conn c ans _ hc =>
    have hnote : noteCommands env s (.conn c ans) l = l ++ entries c (s.phase c) (s'.phase c) := by
      simp only [noteCommands, hs]
    have hcommanded := hc.commanded hS
    have hlt : c < s.nConns := by
      by_contra hge
      exact hc.pc_ne_closed (hA.closed c (Nat.le_of_not_lt hge))
    have hresults : ∀ d, results d (l ++ entries c (s.phase c) (s'.phase c)) =
        results d l ++ results d (entries c (s.phase c) (s'.phase c)) :=
      fun d => List.filterMap_append
    rw [hnote]
    refine ⟨hcommanded.linearized (fun d hd => hc.phase_eq hS hd) h.linearized, fun d => ?_, fun d hd => ?_⟩
    · rw [hresults]
      by_cases hd : c = d
      · subst hd
        rcases hcommanded.results with he | ⟨x, he, hout⟩
        · rw [he, List.append_nil]
          exact written_grows (.conn hc) hlt (h.written c)
        · rw [he, hout, List.map_append]
          exact (h.written c).append (List.Sublist.refl _)
      · rw [results_entries_of_ne hd, List.append_nil]
        rcases Nat.lt_or_ge d s.nConns with hlt | hge
        · exact written_grows (.conn hc) hlt (h.written d)
        · rw [h.fresh d hge]
          exact List.nil_sublist _
    · rw [hc.nConns_eq] at hd
      have hne : c ≠ d := Nat.ne_of_lt (Nat.lt_of_lt_of_le hlt hd)
      rw [hresults, results_entries_of_ne hne, h.fresh d hd]
      rfl
  | @monitor g ans _ hmon =>
    have hphase : ∀ d, s'.phase d = s.phase d := fun d => hmon.phase_eq hS
    by_cases hcore : s'.core.view = s.core.view
    · have hnote : noteCommands env s (.monitor g ans) l = l := by
        simp only [noteCommands, hs, if_pos hcore]
      rw [hnote]
      exact h.same (.monitor hmon) (h.linearized.congr hcore hphase) fun c => rfl
    · have hnote : noteCommands env s (.monitor g ans) l = l ++ [.event] := by
        simp only [noteCommands, hs, if_neg hcore]
      rw [hnote]
      refine h.same (.monitor hmon) ?_ fun c => ?_
      · exact (h.linearized.event (hmon.exited_view hcore)).congr rfl hphase
      · exact List.filterMap_append.trans (List.append_nil _)
  | other ho =>
    have hcore : s'.core.view = s.core.view := by rw [ho.core_eq]
    have hnote : noteCommands env s a l = l := by
      cases ho with
      | procs ha =>
        rcases ha with ⟨q, rfl⟩ | ⟨pid, rfl⟩
        · rfl
        · rfl
      | _ => rfl
    rw [hnote]
    exact h.same (.other ho) (h.linearized.congr hcore fun d => ho.phase_eq hS hA) fun c => rfl

/-- **The commands are linearizable.** -/
theorem commands_linearizable (env : Env) (p : Sys × List CoreEntry) (h : (logged env).Reachable p) :
    Linearized (coreObject env) p.2 p.1.core.view p.1.phase ∧
      (∀ c, (results c p.2).Sublist ((p.1.conns c).out.map Line.ev)) ∧
      ∀ c r l l', p.2 = l ++ .ret c r :: l' →
        ∃ l₁ k₀ l₂ k l₃ v v', l = l₁ ++ .call c k₀ :: l₂ ++ .perform c k (.inr r) :: l₃ ∧
          (∀ e ∈ l₂, ¬ e.Bounds c) ∧ (∀ e ∈ l₃, ¬ e.Bounds c) ∧
          Legal (coreObject env) (l₁ ++ .call c k₀ :: l₂) v ∧ Performs env.version v k (.inr r) v' := by
  have hexplained : Explained env p.1 p.2 := by
    have hr : ((supervisor env).recording [] (noteCommands env)).Reachable p := h
    refine h.invariant (I := fun p => Explained env p.1 p.2) ⟨.init, fun c => ?_, fun c _ => rfl⟩ ?_
    · exact List.nil_sublist _
    · intro p a p' hr hI _ hs
      have hr : ((supervisor env).recording [] (noteCommands env)).Reachable p := hr
      rw [hs.2]
      exact hI.step hr.of_recording hs.1
  refine ⟨hexplained.linearized, hexplained.written, fun c r l l' he => ?_⟩
  have hl := hexplained.linearized
  rw [he] at hl
  exact hl.point

namespace Client

/-- A client has a core started and asks to stop it; another one takes over meanwhile, asks to
start the core, which still runs, and only then the core exits and the first one is answered. -/
def stopOvertaken : List Action :=
  [boot, connect 0 helloText, own 0, start 0 7, stop 0, connect 1 takeoverText, takeOver 1,
    send 1 (line startText), [.conn 1 .done, .conn 1 .done], perish 0,
    [.conn 0 .done, .conn 0 (.stat .absent), .conn 0 .done]].flatten

end Client

theorem commands_linearizable_overtaken :
    ∃ p, (logged Client.env).Reachable p ∧
      results 0 p.2 = [.hello 1 "0.1.0" .stopped none, .coreStarted 7 5000, .coreStopped "requested"] ∧
      results 1 p.2 = [.hello 1 "0.1.0" .running (some 5000), .coreStarted 7 5000] ∧
      Linearized (coreObject Client.env) p.2 p.1.core.view p.1.phase := by
  have hrec : logged Client.env =
      .ofStep ({}, []) (System.recordStep (step Client.env) (noteCommands Client.env)) :=
    System.recording_ofStep
  have hrun : (System.runBy (System.recordStep (step Client.env) (noteCommands Client.env))
      (fun _ _ => True) ({}, []) Client.stopOvertaken).any (fun p =>
        decide (results 0 p.2 = [.hello 1 "0.1.0" .stopped none, .coreStarted 7 5000,
          .coreStopped "requested"] ∧
          results 1 p.2 = [.hello 1 "0.1.0" .running (some 5000), .coreStarted 7 5000])) = true := by
    decide +kernel
  obtain ⟨p, hp, hq⟩ := System.exists_reachableBy_of_runBy hrun
  rw [← hrec] at hp
  obtain ⟨h₀, h₁⟩ := of_decide_eq_true hq
  exact ⟨p, hp, h₀, h₁, (commands_linearizable Client.env p hp).1⟩

end EasyTierMac.Supervisor
