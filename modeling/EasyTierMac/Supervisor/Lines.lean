import EasyTierMac.Supervisor.ServeView

/-!
# The lines of a connection

What `read_line_limited` does to a whole stream. `linesOf` cuts a stream into the lines
that can be read off it, one after the other, up to the first that is too long, not
terminated or not UTF-8; `NoLine` says what stands there. A call of `read_line_limited`
takes the next of these lines (`readLineLimited_line`), asks for more bytes
(`readLineLimited_none`), or finds that there is no further line (`readLineLimited_stop`,
`NoLine.read`).
-/

namespace EasyTierMac.Supervisor

open Framing (IsFrame accepted)
open Rust (Text fromUtf8)

/-- The text of a terminated line, if it is short enough and UTF-8. -/
def lineText (f : List UInt8) : Option Text :=
  if f.length ≤ MAX_LINE then fromUtf8 f else none

/-- The lines of a stream up to the first that cannot be read, and the stream from
there on. -/
def linesOf (bytes : List UInt8) : List Text × List UInt8 := accepted 0x0A lineText bytes

/-- The lines `ls` are read off a stream, and `rest` is left of it. -/
abbrev ReadOff (bytes : List UInt8) (ls : List Text) (rest : List UInt8) : Prop :=
  Framing.Reads 0x0A lineText bytes ls rest

/-- No further line can be read off `rest`. `eof` says that the stream ends after it. -/
inductive NoLine (eof : Bool) (rest : List UInt8) : Prop
  | tooLong (long : MAX_LINE ≤ rest.length) (unbroken : 0x0A ∉ rest.take MAX_LINE)
  | notUtf8 {f more : List UInt8} (frame : IsFrame 0x0A f) (short : f.length ≤ MAX_LINE)
      (bad : fromUtf8 f = none) (first : rest = f ++ more)
  | unterminated (ends : eof = true) (some : rest ≠ []) (unbroken : 0x0A ∉ rest)
  | clean (ends : eof = true) (empty : rest = [])

variable {bytes rest : List UInt8} {eof : Bool} {rl : ReadLine} {l : Text}

/-- A line that is read is the first line of the stream. -/
theorem readLineLimited_line (h : readLineLimited MAX_LINE bytes eof = some (.line l, rest)) :
    ∃ f, IsFrame 0x0A f ∧ lineText f = some l ∧ bytes = f ++ rest := by
  unfold readLineLimited at h
  rw [splitLine_eq] at h
  split at h
  · next f r hsplit =>
    obtain ⟨hf, htake⟩ := Framing.isFrame_of_splitAfter hsplit
    have hlen : f.length ≤ MAX_LINE := by
      have hle := List.length_take_le MAX_LINE bytes
      rw [htake, List.length_append] at hle
      omega
    split at h
    · next t hutf =>
      cases h
      refine ⟨f, hf, ?_, ?_⟩
      · rw [lineText, if_pos hlen, hutf]
      · rw [← List.append_assoc, ← htake, List.take_append_drop]
    · cases h
  · split at h
    · cases h
    · split at h <;> cases h

/-- While `read_until` is blocked there is no complete line. -/
theorem readLineLimited_none (h : readLineLimited MAX_LINE bytes eof = none) : 0x0A ∉ bytes := by
  unfold readLineLimited at h
  rw [splitLine_eq] at h
  split at h
  · split at h <;> cases h
  · next hsplit =>
    split at h
    · cases h
    · split at h
      · cases h
      · next hmore =>
        have hlen : ¬ MAX_LINE ≤ bytes.length := fun hle => hmore (by simp [hle])
        rw [List.take_of_length_le (by omega)] at hsplit
        exact Framing.not_mem_of_splitAfter hsplit

/-- Whatever else is returned, there is no further line. -/
theorem readLineLimited_stop (h : readLineLimited MAX_LINE bytes eof = some (rl, rest))
    (hrl : ∀ l, rl ≠ .line l) : NoLine eof bytes := by
  unfold readLineLimited at h
  rw [splitLine_eq] at h
  split at h
  · next f r hsplit =>
    obtain ⟨hf, htake⟩ := Framing.isFrame_of_splitAfter hsplit
    split at h
    · next t _ =>
      cases h
      exact absurd rfl (hrl t)
    · next hutf =>
      have hlen : f.length ≤ MAX_LINE := by
        have hle := List.length_take_le MAX_LINE bytes
        rw [htake, List.length_append] at hle
        omega
      have hfirst : bytes = f ++ (r ++ bytes.drop MAX_LINE) := by
        rw [← List.append_assoc, ← htake, List.take_append_drop]
      exact .notUtf8 hf hlen hutf hfirst
  · next hsplit =>
    have hnot : (0x0A : UInt8) ∉ bytes.take MAX_LINE := Framing.not_mem_of_splitAfter hsplit
    by_cases hlong : MAX_LINE ≤ bytes.length
    · exact .tooLong hlong hnot
    rw [List.take_of_length_le (by omega)] at hnot h
    have heof : eof = true := by
      cases eof with
      | true => rfl
      | false =>
        rw [if_neg (by simp [MAX_LINE]), if_neg (by simpa using hlong)] at h
        cases h
    cases bytes with
    | nil => exact .clean heof rfl
    | cons b bs => exact .unterminated heof (List.cons_ne_nil b bs) hnot

namespace NoLine

/-- The next call of `read_line_limited` finds out. -/
theorem read (h : NoLine eof rest) :
    ∃ rl rest', readLineLimited MAX_LINE rest eof = some (rl, rest') ∧ ∀ l, rl ≠ .line l := by
  cases hread : readLineLimited MAX_LINE rest eof with
  | none =>
    exfalso
    have hnot := readLineLimited_none hread
    cases h with
    | tooLong long unbroken =>
      unfold readLineLimited at hread
      rw [splitLine_eq] at hread
      split at hread
      · split at hread <;> cases hread
      · split at hread
        · cases hread
        · rw [if_pos (by simp [long])] at hread
          cases hread
    -- the frame ends in a newline
    | notUtf8 frame short bad first =>
      obtain ⟨body, -, rfl⟩ := frame
      rw [first] at hnot
      simp at hnot
    | unterminated ends | clean ends =>
      unfold readLineLimited at hread
      rw [splitLine_eq] at hread
      split at hread
      · split at hread <;> cases hread
      · simp [ends] at hread
        split at hread <;> cases hread
  | some p =>
    obtain ⟨rl, rest'⟩ := p
    refine ⟨rl, rest', rfl, ?_⟩
    rintro l rfl
    obtain ⟨f, hf, htext, he⟩ := readLineLimited_line hread
    have hmem : (0x0A : UInt8) ∈ f := by
      obtain ⟨body, -, rfl⟩ := hf
      simp
    cases h with
    | tooLong long unbroken =>
      unfold lineText at htext
      split at htext
      · next hlen =>
        refine unbroken ?_
        rw [he, List.take_append, List.take_of_length_le hlen]
        exact List.mem_append_left _ hmem
      · cases htext
    | notUtf8 frame short bad first =>
      obtain ⟨rfl, -⟩ := hf.append_inj frame (he.symm.trans first)
      rw [lineText, if_pos short, bad] at htext
      cases htext
    | unterminated _ _ unbroken => exact unbroken (he ▸ List.mem_append_left _ hmem)
    | clean _ empty =>
      rw [empty] at he
      exact hf.ne_nil (List.append_eq_nil_iff.mp he.symm).1

theorem linesOf_eq (h : NoLine eof rest) : linesOf rest = ([], rest) := by
  cases h with
  | tooLong long unbroken =>
    unfold linesOf
    cases hsplit : Framing.splitAfter (0x0A : UInt8) rest with
    | none => exact Framing.accepted_of_not_mem (Framing.not_mem_of_splitAfter hsplit)
    | some p =>
      obtain ⟨f, more⟩ := p
      obtain ⟨hf, rfl⟩ := Framing.isFrame_of_splitAfter hsplit
      refine Framing.accepted_reject hf ?_ more
      -- a line that fits would have its newline within the limit
      refine if_neg fun hlen => unbroken ?_
      rw [List.take_append, List.take_of_length_le hlen]
      obtain ⟨body, -, rfl⟩ := hf
      simp
  | @notUtf8 f more frame short bad first =>
    rw [first]
    refine Framing.accepted_reject frame ?_ more
    rw [lineText, if_pos short, bad]
  | unterminated _ _ unbroken => exact Framing.accepted_of_not_mem unbroken
  | clean _ empty => exact empty ▸ rfl

/-- An end of stream does not go away. -/
theorem mono {eof' : Bool} (h : NoLine eof rest) (heof : eof = true → eof' = true) :
    NoLine eof' rest := by
  cases h with
  | tooLong long unbroken => exact .tooLong long unbroken
  | notUtf8 frame short bad first => exact .notUtf8 frame short bad first
  | unterminated ends some unbroken => exact .unterminated (heof ends) some unbroken
  | clean ends empty => exact .clean (heof ends) empty

end NoLine

/-- What has been read are the first lines of the stream. -/
theorem linesOf_of_readOff {ls : List Text} (h : ReadOff bytes ls rest) :
    linesOf bytes = (ls ++ (linesOf rest).1, (linesOf rest).2) :=
  h.accepted_eq

/-- A stream that starts with a line. -/
theorem linesOf_line {f more : List UInt8} (hf : IsFrame 0x0A f) (htext : lineText f = some l) :
    linesOf (f ++ more) = (l :: (linesOf more).1, (linesOf more).2) :=
  linesOf_of_readOff (.cons hf htext .nil)

/-- A stream without a complete line. -/
theorem linesOf_dry (h : 0x0A ∉ bytes) : linesOf bytes = ([], bytes) :=
  Framing.accepted_of_not_mem h

end EasyTierMac.Supervisor
