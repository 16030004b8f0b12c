import EasyTierMac.Supervisor.Runs

/-!
# Who writes to a stream

`write_event` is called in five places: a refusal, the hello reply and the replies
of the command loop by the thread of the connection itself, `kicked` by the
thread of the connection that takes the lease over, and `core_exited` by a
monitor. `Move.out_cases` says that a step appends one of these lines to a stream
or leaves it as it is.
-/

namespace EasyTierMac.Supervisor

open Function (update)

variable {env : Env} {s s' : Sys}

/-- The action writes line `l` to the stream of connection `d`. -/
inductive Writes (s : Sys) (d : ConnId) : Action → Line → Prop
  | refuse {ans : Answer} {ev : Event} (hpc : (s.conns d).pc = .refuse ev) :
      Writes s d (.conn d ans) ⟨ev, none⟩
  | hello {ans : Answer} {l : Line} (hpc : (s.conns d).pc = .helloWrite l) :
      Writes s d (.conn d ans) l
  | reply {ans : Answer} {l : Line} (hpc : (s.conns d).pc = .reply l) :
      Writes s d (.conn d ans) l
  | kicked {c : ConnId} (hpc : (s.conns c).pc = .kickWrite d) :
      Writes s d (.conn c .done) ⟨.kicked, none⟩
  | coreExited {g : Gen} {ans : Answer} {info : ExitInfo}
      (hpc : (s.monitors g).pc = .pushWrite info d) :
      Writes s d (.monitor g ans) ⟨.coreExited info.code info.signal, some (.stopped g)⟩

theorem ConnMove.out_cases {c : ConnId} {ans : Answer} (h : ConnMove env s c ans s') (d : ConnId) :
    (s'.conns d).out = (s.conns d).out ∨
      ∃ l, Writes s d (.conn c ans) l ∧ (s'.conns d).out = (s.conns d).out ++ [l] := by
  cases h with
  | sweep hpc hsw | swept hpc hsw =>
    obtain ⟨hooks, n, calls, rfl⟩ := sweepStep_eq hsw
    by_cases hd : d = c <;> simp [hd]
  | refused hpc =>
    by_cases hd : d = c
    · subst hd
      exact .inr ⟨_, .refuse hpc, by simp⟩
    · exact .inl (by simp [hd])
  | helloWrite hpc =>
    by_cases hd : d = c
    · subst hd
      exact .inr ⟨_, .hello hpc, by simp⟩
    · exact .inl (by simp [hd])
  | reply hpc =>
    by_cases hd : d = c
    · subst hd
      exact .inr ⟨_, .reply hpc, by simp⟩
    · exact .inl (by simp [hd])
  -- the one line that a connection writes into the stream of another
  | @kickWrite old hpc =>
    by_cases hd : d = old
    · subst hd
      refine .inr ⟨_, .kicked hpc, ?_⟩
      by_cases hdc : d = c <;> simp [hdc]
    · refine .inl ?_
      by_cases hdc : d = c
      · subst hdc
        simp [hd]
      · simp [hd, hdc]
  | @takeover _ old =>
    refine .inl ?_
    by_cases hd : d = c <;> by_cases ho : d = old.conn <;> simp_all [Function.update_apply]
  | @kickShutdown old =>
    refine .inl ?_
    by_cases hd : d = c <;> by_cases ho : d = old <;> simp_all [Function.update_apply]
  | _ =>
    refine .inl ?_
    by_cases hd : d = c <;> simp [hd]

theorem MonMove.conns_cases {g : Gen} {ans : Answer} (h : MonMove env s g ans s') (d : ConnId) :
    s'.conns d = s.conns d ∨ ∃ l, Writes s d (.monitor g ans) l ∧
      s'.conns d = { s.conns d with out := (s.conns d).out ++ [l] } := by
  cases h with
  | sweep hpc hsw | swept hpc hsw =>
    obtain ⟨hooks, n, calls, rfl⟩ := sweepStep_eq hsw
    exact .inl rfl
  | downHook hpc => exact .inl (by simp)
  | @pushWrite _ info c hpc =>
    by_cases hd : d = c
    · subst hd
      exact .inr ⟨_, .coreExited hpc, by simp⟩
    · exact .inl (by simp [hd])
  | _ => exact .inl rfl

/-- **Every line has a writer.** A step leaves a stream as it is, appends one line
to it, or accepts the connection. -/
theorem Move.out_cases {a : Action} (h : Move env s a s') (d : ConnId) :
    (s'.conns d).out = (s.conns d).out ∨
      (∃ l, Writes s d a l ∧ (s'.conns d).out = (s.conns d).out ++ [l]) ∨
      d = s.nConns ∧ ∃ uid, s'.conns d = { pc := .auth, uid := uid } := by
  cases h with
  | conn h => exact (h.out_cases d).imp_right .inl
  | monitor h =>
    rcases h.conns_cases d with he | ⟨l, hw, he⟩
    · exact .inl (by rw [he])
    · exact .inr (.inl ⟨l, hw, by rw [he]⟩)
  | other h =>
    rcases h.conns_eq with ⟨uid, hc, -⟩ | ⟨-, hc⟩
    · by_cases hd : d = s.nConns
      · exact .inr (.inr ⟨hd, uid, by rw [hc, hd, Function.update_self]⟩)
      · exact .inl (by rw [hc, Function.update_of_ne hd])
    · obtain ⟨sock, closed, he⟩ := hc d
      exact .inl (by rw [he])

/-- A stream only grows. -/
theorem Move.mem_out {a : Action} (h : Move env s a s') {d : ConnId} (hd : d ≠ s.nConns) {l : Line}
    (hl : l ∈ (s.conns d).out) : l ∈ (s'.conns d).out := by
  rcases h.out_cases d with he | ⟨x, -, he⟩ | ⟨he, -⟩
  · rw [he]
    exact hl
  · rw [he]
    exact List.mem_append_left _ hl
  · exact absurd he hd

end EasyTierMac.Supervisor
