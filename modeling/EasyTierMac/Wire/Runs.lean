import EasyTierMac.Wire.Streams
import EasyTierMac.Bridge.Runs
import EasyTierMac.Supervisor.Runs
import Mathlib.Data.List.Infix

/-!
# Runs of both sides

Concrete runs evaluate: `exists_reachable` turns one into a reachable state. `Trial` has
codecs that know the lines of a session in which a core is started, as the real ones do.
-/

namespace EasyTierMac.Wire

open Transition (System)
open Rust (Text fromUtf8 toUtf8 trim)

/-- A run that evaluates to a state passing the test `p` reaches such a state. -/
theorem exists_reachable (env : Env) (l : List Action) (p : Link → Bool)
    (h : (System.runBy (step env) (fun _ _ => True) (.init env) l).any p = true) :
    ∃ s, (link env).Reachable s ∧ p s = true :=
  System.exists_reachableBy_of_runBy h

theorem trim_within (t : Text) : trim t <:+: t :=
  (List.rdropWhile_prefix _ _).isInfix.trans (List.dropWhile_suffix _).isInfix

namespace Trial

def hello : Supervisor.Event := .hello 1 "0.1.0" .stopped none

def started : Supervisor.Event := .coreStarted 77 5000

def helloText : Text :=
  ("\x7b\"event\":\"hello\",\"proto\":1,\"version\":\"0.1.0\"," ++
    "\"core\":\"stopped\",\"rpc_port\":null\x7d").toList

def startedText : Text := "\x7b\"event\":\"core_started\",\"pid\":77,\"rpc_port\":5000\x7d".toList

def env : Env where
  client := ⟨{}, { Bridge.Trial.codec with
    fromStr := fun t =>
      if t = helloText then .ok (mirror hello)
      else if t = startedText then .ok (mirror started)
      else .error "unexpected line" }⟩
  sup := { Supervisor.Client.env with
    fromStr := fun t =>
      if t = Bridge.Trial.codec.toString (.hello 1 false) then .ok (.hello 1 false)
      else if t = Bridge.Trial.codec.toString .start then .ok .start
      else .error "unexpected line" }
  toString ev := if ev = hello then helloText else if ev = started then startedText else []

/-! ## Its lines are those of a codec -/

/-- The text of a part of an ASCII line. -/
theorem within_of_part {t text : Text} {before l after : List UInt8}
    (hascii : ∀ b ∈ toUtf8 t, b < 0x80) (h : toUtf8 t = before ++ (l ++ after))
    (hl : fromUtf8 l = some text) : text <:+: t.drop before.length := by
  have ht : t = (toUtf8 t).map fun b => Char.ofNat b.toNat := by
    have hdec := Rust.fromUtf8_ascii hascii
    rw [Rust.fromUtf8_toUtf8] at hdec
    exact Option.some.inj hdec
  have hltext : text = l.map fun b => Char.ofNat b.toNat := by
    have hdec := Rust.fromUtf8_ascii (l := l) fun b hb => hascii b (by rw [h]; simp [hb])
    exact Option.some.inj (hl.symm.trans hdec)
  rw [ht, h, hltext, List.map_append, List.map_append]
  have hlen : before.length = (before.map fun b => Char.ofNat b.toNat).length := by simp
  rw [hlen, List.drop_left]
  exact (List.prefix_append _ _).isInfix

/-- No line has another one in it, or itself further on. -/
theorem part_eq {t d : Text} {n : Nat} (ht : t = helloText ∨ t = startedText ∨ t = [])
    (hd : d = helloText ∨ d = startedText) (h : d <:+: (t ++ ['\n']).drop n) : n = 0 ∧ d = t := by
  have hdrop : 0 < n → d <:+: (t ++ ['\n']).drop 1 := by
    intro hn
    have hsuffix : (t ++ ['\n']).drop n <:+ (t ++ ['\n']).drop 1 := by
      rw [← Nat.add_sub_cancel' hn, ← List.drop_drop]
      exact List.drop_suffix _ _
    exact h.trans hsuffix.isInfix
  have hwhole : d <:+: t ++ ['\n'] := h.trans (List.drop_suffix _ _).isInfix
  rcases ht with rfl | rfl | rfl <;> rcases hd with rfl | rfl
  · exact ⟨Nat.eq_zero_of_not_pos fun hn => absurd (hdrop hn) (by decide +kernel), rfl⟩
  · exact absurd hwhole (by decide +kernel)
  · exact absurd hwhole (by decide +kernel)
  · exact ⟨Nat.eq_zero_of_not_pos fun hn => absurd (hdrop hn) (by decide +kernel), rfl⟩
  · exact absurd hwhole (by decide +kernel)
  · exact absurd hwhole (by decide +kernel)

/-- The text of a command does not depend on the protocol version. -/
theorem forall_cmd {P : Text → Prop}
    (h : ∀ cmd ∈ [Bridge.Cmd.hello 1 false, .hello 1 true, .start, .status, .stop],
      P (env.client.codec.toString cmd)) (cmd : Bridge.Cmd) : P (env.client.codec.toString cmd) := by
  cases cmd with
  | hello proto takeover =>
    cases takeover with
    | false => exact h (.hello 1 false) (by simp)
    | true => exact h (.hello 1 true) (by simp)
  | start | status | stop => exact h _ (by simp)

theorem json : Json env where
  event_line ev := by
    show '\n' ∉ (if ev = hello then helloText else if ev = started then startedText else [])
    split
    · decide +kernel
    · split <;> decide +kernel
  cmd_line := forall_cmd (P := fun t => '\n' ∉ t) (by decide +kernel)
  cmd_blank := forall_cmd (P := fun t => (trim (t ++ ['\n'])).isEmpty = false) (by decide +kernel)
  cmd_length := forall_cmd (P := fun t => (toUtf8 (t ++ ['\n'])).length ≤ Supervisor.MAX_LINE)
    (by decide +kernel)
  event_part {ev before l after ev'} hline hev := by
    obtain ⟨text, hl, hdec⟩ := Option.bind_eq_some_iff.mp hev
    have hread : (trim text = helloText ∧ ev' = mirror hello) ∨
        (trim text = startedText ∧ ev' = mirror started) := by
      have hfrom : Except.toOption (if trim text = helloText then .ok (mirror hello)
          else if trim text = startedText then .ok (mirror started)
          else .error "unexpected line") = some ev' := hdec
      by_cases h₁ : trim text = helloText
      · rw [if_pos h₁] at hfrom
        exact .inl ⟨h₁, (Option.some.inj hfrom).symm⟩
      rw [if_neg h₁] at hfrom
      by_cases h₂ : trim text = startedText
      · rw [if_pos h₂] at hfrom
        exact .inr ⟨h₂, (Option.some.inj hfrom).symm⟩
      · rw [if_neg h₂] at hfrom
        cases hfrom
    have htext : (ev = hello ∧ env.toString ev = helloText) ∨
        (ev = started ∧ env.toString ev = startedText) ∨ env.toString ev = [] := by
      show (ev = hello ∧ (if ev = hello then _ else _) = _) ∨
        (ev = started ∧ (if ev = hello then _ else _) = _) ∨ (if ev = hello then _ else _) = _
      by_cases h₁ : ev = hello
      · exact .inl ⟨h₁, if_pos h₁⟩
      by_cases h₂ : ev = started
      · exact .inr (.inl ⟨h₂, by rw [if_neg h₁, if_pos h₂]⟩)
      · exact .inr (.inr (by rw [if_neg h₁, if_neg h₂]))
    have hascii : ∀ b ∈ toUtf8 (env.toString ev ++ ['\n']), b < 0x80 := by
      rcases htext with ⟨-, ht⟩ | ⟨-, ht⟩ | ht
      all_goals
        rw [ht]
        decide +kernel
    have hpart := (trim_within text).trans (within_of_part hascii hline hl)
    obtain ⟨hn, heq⟩ := part_eq (htext.imp And.right (Or.imp_left And.right))
      (hread.imp And.left And.left) hpart
    refine ⟨List.eq_nil_of_length_eq_zero hn, ?_⟩
    rcases hread with ⟨hd, rfl⟩ | ⟨hd, rfl⟩ <;>
      rcases htext with ⟨rfl, ht⟩ | ⟨rfl, ht⟩ | ht
    · rfl
    · exact absurd (hd.symm.trans (heq.trans ht)) (by decide +kernel)
    · exact absurd (hd.symm.trans (heq.trans ht)) (by decide +kernel)
    · exact absurd (hd.symm.trans (heq.trans ht)) (by decide +kernel)
    · rfl
    · exact absurd (hd.symm.trans (heq.trans ht)) (by decide +kernel)

/-! ## A session in which a core is started -/

/-- `n` bytes arrive at the supervisor, which reads a line of them. -/
def toSupervisor (n : Nat) : List Action :=
  [.up n, .sup (.conn 0 (.refill n)), .sup (.conn 0 .done)]

/-- `n` bytes arrive at the client, which reads a line of them. -/
def toClient (n : Nat) : List Action := [.down n, .client (.fill n), .client .poll]

/-- The client connects as the owner. -/
def session : List Action :=
  Supervisor.Client.boot.map .sup ++
    [.connect (some 501), .client (.hello true), .sup (.conn 0 .done)] ++ toSupervisor 43 ++
    (Supervisor.Client.own 0).map .sup ++ toClient 79

/-- A core is started. The supervisor reads the command before the client's `write_all`
has returned. -/
def start : List Action :=
  [.client (.call .start), .client (.send 0), .client .recv] ++ toSupervisor 16 ++
    [.client (.wrote .ok), .sup (.conn 0 (.spawn (.child 77 5000))), .sup (.conn 0 .done),
      .sup (.conn 0 (.stat .absent)), .sup (.conn 0 .done)] ++
    toClient 50 ++ [.client (.receive 0)]

end Trial

end EasyTierMac.Wire
