import Mathlib.Data.List.Basic

/-!
# Command lines of the shell, and string literals of AppleScript

`Sh.command` reads a text by the token recognition and quote removal of the POSIX shell. It
gives the words of a text that is one simple command of plain words, and nothing for a text
in which the shell would find more than that: an operator or a newline outside quotes, an
expansion, a pattern, a tilde, a comment, a quote that is not closed.

`AppleScript.literal` reads a string literal after its opening quote. `doShellScript` reads
a `do shell script` statement: the text of its literal, and its parameters.
-/

namespace EasyTierMac.Quoting

/-! ## The shell -/

namespace Sh

/-- A word after quote removal. -/
structure Word where
  text : List Char
  /-- A part of it was quoted. -/
  quoted : Bool
  deriving DecidableEq, Repr

inductive Mode
  | between
  | bare
  /-- After a backslash outside quotes. -/
  | escape (inWord : Bool)
  | single
  | double
  | doubleEscape
  deriving DecidableEq, Repr

structure State where
  mode : Mode
  /-- The word that is being read. -/
  word : Word
  words : List Word
  deriving DecidableEq, Repr

def State.start : State := ⟨.between, ⟨[], false⟩, []⟩

/-- A character that has no meaning for the shell outside quotes. -/
def isPlain (c : Char) : Bool :=
  c.isAlphanum || c ∈ ['-', '_', '.', '/', ',', ':', '@', '%', '+']

def isBlank (c : Char) : Bool := c = ' ' || c = '\t'

/-- More of the word, as it stands. -/
def State.add (s : State) (t : List Char) : State :=
  { s with word := ⟨s.word.text ++ t, s.word.quoted⟩ }

/-- The word is quoted from here on. -/
def State.quote (s : State) (mode : Mode) : State :=
  { s with mode := mode, word := ⟨s.word.text, true⟩ }

/-- A character outside quotes, in a word or between two. -/
def outside (s : State) (c : Char) : Option State :=
  if c = '\'' then some (s.quote .single)
  else if c = '"' then some (s.quote .double)
  else if c = '\\' then some { s with mode := .escape (s.mode = .bare) }
  else if isPlain c then some { s.add [c] with mode := .bare }
  else none

def step (s : State) (c : Char) : Option State :=
  match s.mode with
  | .between => if isBlank c then some s else outside s c
  | .bare =>
    if isBlank c then some ⟨.between, ⟨[], false⟩, s.words ++ [s.word]⟩ else outside s c
  | .escape inWord =>
    -- a line continuation
    if c = '\n' then some { s with mode := if inWord then .bare else .between }
    else some ((s.add [c]).quote .bare)
  | .single => if c = '\'' then some { s with mode := .bare } else some (s.add [c])
  | .double =>
    if c = '"' then some { s with mode := .bare }
    else if c = '\\' then some { s with mode := .doubleEscape }
    else if c = '$' ∨ c = '`' then none
    else some (s.add [c])
  | .doubleEscape =>
    if c = '\n' then some { s with mode := .double }
    else if c = '$' ∨ c = '`' ∨ c = '"' ∨ c = '\\' then some { s.add [c] with mode := .double }
    else some { s.add ['\\', c] with mode := .double }

def run (s : State) (t : List Char) : Option State := t.foldlM step s

/-- The words at the end of the text. -/
def State.finish (s : State) : Option (List Word) :=
  match s.mode with
  | .between => some s.words
  | .bare => some (s.words ++ [s.word])
  | _ => none

def words (t : List Char) : Option (List Word) := (run .start t).bind State.finish

/-- The words of a text that is one simple command. Where a part of the first word is
quoted, that word is neither a reserved word nor an alias nor an assignment. -/
def command (t : List Char) : Option (List (List Char)) :=
  match words t with
  | some (w :: ws) => if w.quoted then some ((w :: ws).map Word.text) else none
  | _ => none

example : command "'a b' \"c\\\"d\" e\\ f".toList
    = some ["a b".toList, "c\"d".toList, "e f".toList] := by decide
example : command "'a' b; c".toList = none := by decide
example : command "'a' $b".toList = none := by decide

theorem run_append (s : State) (t u : List Char) : run s (t ++ u) = (run s t).bind (run · u) := by
  unfold run
  rw [List.foldlM_append]
  rfl

theorem run_cons (s : State) (c : Char) (t : List Char) :
    run s (c :: t) = (step s c).bind (run · t) := rfl

theorem add_add (s : State) (t u : List Char) : (s.add t).add u = s.add (t ++ u) := by
  unfold State.add
  dsimp only
  rw [List.append_assoc]

theorem outside_plain {c : Char} (hc : isPlain c = true) (s : State) :
    outside s c = some { s.add [c] with mode := .bare } := by
  have hsingle : c ≠ '\'' := by rintro rfl; cases hc
  have hdouble : c ≠ '"' := by rintro rfl; cases hc
  have hback : c ≠ '\\' := by rintro rfl; cases hc
  unfold outside
  rw [if_neg hsingle, if_neg hdouble, if_neg hback, if_pos hc]

theorem isBlank_plain {c : Char} (hc : isPlain c = true) : isBlank c = false := by
  have hspace : c ≠ ' ' := by rintro rfl; cases hc
  have htab : c ≠ '\t' := by rintro rfl; cases hc
  unfold isBlank
  rw [decide_eq_false hspace, decide_eq_false htab]
  rfl

theorem step_plain {c : Char} (hc : isPlain c = true) {s : State}
    (hs : s.mode = .between ∨ s.mode = .bare) :
    step s c = some { s.add [c] with mode := .bare } := by
  have hblank : ¬isBlank c = true := by
    rw [isBlank_plain hc]
    decide
  unfold step
  rcases hs with hs | hs <;> (rw [hs]; dsimp only; rw [if_neg hblank, outside_plain hc])

/-- Plain characters are read as they stand. -/
theorem run_plain {w : List Char} (hw : ∀ c ∈ w, isPlain c = true) (hne : w ≠ []) {s : State}
    (hs : s.mode = .between ∨ s.mode = .bare) :
    run s w = some { s.add w with mode := .bare } := by
  induction w generalizing s with
  | nil => exact absurd rfl hne
  | cons c w ih =>
    rw [run_cons, step_plain (hw c List.mem_cons_self) hs, Option.bind_some]
    by_cases hnil : w = []
    · rw [hnil]
      rfl
    · rw [ih (fun d hd => hw d (List.mem_cons_of_mem c hd)) hnil (.inr rfl)]
      show some ({ (s.add [c]).add w with mode := .bare } : State) = _
      rw [add_add]
      rfl

/-! ### Single quotes -/

/-- A single-quoted text, with each quote in it outside the quotes and after a backslash. -/
def quoteWith (t : List Char) : List Char :=
  '\'' :: (t.flatMap (fun c => if c = '\'' then ['\'', '\\', '\'', '\''] else [c]) ++ ['\''])

theorem run_single (t : List Char) (w : List Char) (ws : List Word) :
    run ⟨.single, ⟨w, true⟩, ws⟩
        (t.flatMap fun c => if c = '\'' then ['\'', '\\', '\'', '\''] else [c])
      = some ⟨.single, ⟨w ++ t, true⟩, ws⟩ := by
  induction t generalizing w with
  | nil =>
    rw [List.append_nil]
    rfl
  | cons c t ih =>
    have hc : run ⟨.single, ⟨w, true⟩, ws⟩ (if c = '\'' then ['\'', '\\', '\'', '\''] else [c])
        = some ⟨.single, ⟨w ++ [c], true⟩, ws⟩ := by
      by_cases hq : c = '\''
      · rw [if_pos hq, hq]
        rfl
      · rw [if_neg hq, run_cons]
        unfold step
        dsimp only
        rw [if_neg hq]
        rfl
    rw [List.flatMap_cons, run_append, hc, Option.bind_some, ih, List.append_assoc,
      List.singleton_append]

/-- **Single quotes.** Whatever the text is, its quoted form is read as the text, without an
expansion and without the end of the word. -/
theorem run_quoteWith (t : List Char) {s : State} (hs : s.mode = .between ∨ s.mode = .bare) :
    run s (quoteWith t) = some ((s.add t).quote .bare) := by
  obtain ⟨mode, ⟨w, q⟩, ws⟩ := s
  have hopen : step ⟨mode, ⟨w, q⟩, ws⟩ '\'' = some ⟨.single, ⟨w, true⟩, ws⟩ := by
    rcases hs with hs | hs <;> (dsimp only at hs; rw [hs]; rfl)
  unfold quoteWith
  rw [run_cons, hopen, Option.bind_some, run_append, run_single, Option.bind_some]
  rfl

/-- A blank ends the word. -/
theorem step_blank {s : State} (hs : s.mode = .bare) :
    step s ' ' = some ⟨.between, ⟨[], false⟩, s.words ++ [s.word]⟩ := by
  unfold step
  rw [hs]
  rfl

/-- A plain word between two blanks, after another word. -/
theorem run_option {w : List Char} (hw : ∀ c ∈ w, isPlain c = true) (hne : w ≠ []) {s : State}
    (hs : s.mode = .bare) :
    run s (' ' :: (w ++ [' ']))
      = some ⟨.between, ⟨[], false⟩, s.words ++ [s.word] ++ [⟨w, false⟩]⟩ := by
  rw [run_cons, step_blank hs, Option.bind_some, run_append, run_plain hw hne (.inl rfl),
    Option.bind_some]
  rfl

end Sh

/-! ## AppleScript -/

namespace AppleScript

/-- What `\` and this character stand for. -/
def escaped (c : Char) : Option Char :=
  if c = '\\' then some '\\'
  else if c = '"' then some '"'
  else if c = 'n' then some '\n'
  else if c = 'r' then some '\r'
  else if c = 't' then some '\t'
  else none

/-- A string literal after its opening quote, or after a backslash in it, and what follows
the literal. -/
def literal (afterBackslash : Bool) : List Char → Option (List Char × List Char)
  | [] => none
  | c :: t =>
    if afterBackslash then do
      let e ← escaped c
      let (s, rest) ← literal false t
      some (e :: s, rest)
    else if c = '"' then some ([], t)
    else if c = '\\' then literal true t
    else do
      let (s, rest) ← literal false t
      some (c :: s, rest)

/-- `do shell script "..."`: the text of the literal, and the parameters after it. A line
break outside the literal would end the statement. -/
def doShellScript (t : List Char) : Option (List Char × List Char) := do
  let (s, rest) ← literal false (← t.dropPrefix? "do shell script \"".toList)
  if '\n' ∈ rest ∨ '\r' ∈ rest then none else some (s, rest)

/-- One character of a literal that stands for it. -/
def escapeChar (c : Char) : List Char :=
  if c = '\\' then ['\\', '\\'] else if c = '"' then ['\\', '"'] else [c]

theorem literal_escapeChar (c : Char) (t : List Char) :
    literal false (escapeChar c ++ t)
      = (literal false t).bind fun (s, rest) => some (c :: s, rest) := by
  unfold escapeChar
  by_cases hback : c = '\\'
  · rw [if_pos hback, hback]
    rfl
  by_cases hquote : c = '"'
  · rw [if_neg hback, if_pos hquote, hquote]
    rfl
  · rw [if_neg hback, if_neg hquote, List.singleton_append]
    show (if c = '"' then _ else if c = '\\' then _ else _) = _
    rw [if_neg hquote, if_neg hback]
    rfl

/-- **String literals.** An escaped text is read as the text, and the literal ends behind
it. -/
theorem literal_escape (t rest : List Char) :
    literal false (t.flatMap escapeChar ++ '"' :: rest) = some (t, rest) := by
  induction t with
  | nil => rfl
  | cons c t ih =>
    rw [List.flatMap_cons, List.append_assoc, literal_escapeChar, ih]
    rfl

end AppleScript

end EasyTierMac.Quoting
