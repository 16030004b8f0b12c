import Mathlib.Algebra.Group.Int.Defs
import Mathlib.Algebra.Group.Nat.Defs
import Mathlib.Data.List.DropRight

/-!
# The `std` string functions the programs call

`from_utf8`, `trim`, `lines`, `splitn(2, char::is_whitespace)`,
`str::parse::<i32>` and `replace`, over `List Char` for text and `List UInt8` for bytes.
Each follows the documented behaviour of the Rust function it is named after;
all of them are structural recursions, so a concrete line evaluates.
-/

namespace EasyTierMac.Rust

/-- Text as a list of scalar values (a Rust `str`). -/
abbrev Text := List Char

/-- `char::is_whitespace`: the Unicode `White_Space` property. -/
def isWhitespace (c : Char) : Bool :=
  let n := c.toNat
  (0x09 ≤ n && n ≤ 0x0D) || n == 0x20 || n == 0x85 || n == 0xA0 || n == 0x1680 ||
    (0x2000 ≤ n && n ≤ 0x200A) || n == 0x2028 || n == 0x2029 || n == 0x202F ||
    n == 0x205F || n == 0x3000

/-- `str::trim_start`. -/
def trimStart (t : Text) : Text := t.dropWhile isWhitespace

/-- `str::trim_end`. -/
def trimEnd (t : Text) : Text := t.rdropWhile isWhitespace

/-- `str::trim`. -/
def trim (t : Text) : Text := trimEnd (trimStart t)

/-- A UTF-8 continuation byte, as its six payload bits. -/
def contBits (b : UInt8) : Option Nat :=
  if 0x80 ≤ b && b < 0xC0 then some (b.toNat - 0x80) else none

/-- The scalar value `n`, if a sequence of this length may encode it: at least
`lo` (no overlong form), not a surrogate, at most `U+10FFFF`. -/
def scalar (lo n : Nat) : Option Char :=
  if lo ≤ n && !(0xD800 ≤ n && n < 0xE000) && n < 0x110000 then some (Char.ofNat n) else none

/-- `String::from_utf8`: `none` is the error. -/
def fromUtf8 : List UInt8 → Option Text
  | [] => some []
  | b :: rest =>
    if b < 0x80 then (fromUtf8 rest).map (Char.ofNat b.toNat :: ·)
    else if 0xC0 ≤ b && b < 0xE0 then
      match rest with
      | b₁ :: rest => do
        let x₁ ← contBits b₁
        let c ← scalar 0x80 ((b.toNat - 0xC0) * 0x40 + x₁)
        (fromUtf8 rest).map (c :: ·)
      | _ => none
    else if 0xE0 ≤ b && b < 0xF0 then
      match rest with
      | b₁ :: b₂ :: rest => do
        let x₁ ← contBits b₁
        let x₂ ← contBits b₂
        let c ← scalar 0x800 (((b.toNat - 0xE0) * 0x40 + x₁) * 0x40 + x₂)
        (fromUtf8 rest).map (c :: ·)
      | _ => none
    else if 0xF0 ≤ b && b < 0xF8 then
      match rest with
      | b₁ :: b₂ :: b₃ :: rest => do
        let x₁ ← contBits b₁
        let x₂ ← contBits b₂
        let x₃ ← contBits b₃
        let c ← scalar 0x10000 ((((b.toNat - 0xF0) * 0x40 + x₁) * 0x40 + x₂) * 0x40 + x₃)
        (fromUtf8 rest).map (c :: ·)
      | _ => none
    else none

/-- The text up to the first `\n`, and what follows it if there was one. -/
def untilNewline : Text → Text × Option Text
  | [] => ([], none)
  | c :: t => if c = '\n' then ([], some t) else
    let (l, r) := untilNewline t
    (c :: l, r)

/-- One line of `str::lines`: a trailing `\r` belongs to the terminator. -/
def stripCr (l : Text) : Text := if l.getLast? = some '\r' then l.dropLast else l

/-- `str::lines` over at most `fuel` lines. -/
def linesAux : Nat → Text → List Text
  | 0, _ => []
  | fuel + 1, t =>
    if t = [] then [] else
    match untilNewline t with
    | (l, some r) => stripCr l :: linesAux fuel r
    | (l, none) => [l]

/-- `str::lines`. Every line consumes a character, so the length is fuel enough. -/
def lines (t : Text) : List Text := linesAux t.length t

/-- `splitn(2, char::is_whitespace)`: the text before the first blank, and the
text after it if there is one. -/
def splitBlank : Text → Text × Option Text
  | [] => ([], none)
  | c :: t => if isWhitespace c then ([], some t) else
    let (l, r) := splitBlank t
    (c :: l, r)

/-- The value of a non-empty string of decimal digits. -/
def digits (t : Text) : Option Nat :=
  if t = [] then none
  else t.foldl (fun acc c => acc.bind fun n =>
    if c.isDigit then some (n * 10 + (c.toNat - 0x30)) else none) (some 0)

/-- `str::parse::<i32>`: an optional sign, then digits, within range. -/
def parseI32 (t : Text) : Option Int32 :=
  let inRange (n : Int) : Option Int32 :=
    if -(2 ^ 31 : Int) ≤ n && n < 2 ^ 31 then some (Int32.ofInt n) else none
  match t with
  | '+' :: t => (digits t).bind fun n => inRange n
  | '-' :: t => (digits t).bind fun n => inRange (-n)
  | t => (digits t).bind fun n => inRange n

/-- The characters of `t` after the first `skip`, without the matches of `pat`. -/
def removeFrom (pat : Text) : Nat → Text → Text
  | _, [] => []
  | skip + 1, _ :: t => removeFrom pat skip t
  | 0, c :: t =>
    if pat ≠ [] ∧ pat.isPrefixOf (c :: t) = true then removeFrom pat (pat.length - 1) t
    else c :: removeFrom pat 0 t

/-- `str::replace(pat, "")`: the matches are found from the left and do not overlap. -/
def remove (pat t : Text) : Text := removeFrom pat 0 t

/-- `str::replace` of one character. -/
def replaceChar (ch : Char) (new t : Text) : Text :=
  t.flatMap fun c => if c = ch then new else [c]

/-- `str::trim_end_matches` of one character. -/
def trimEndMatches (ch : Char) (t : Text) : Text := t.rdropWhile (· == ch)

example : remove ['a', 'a'] ['a', 'a', 'a', 'b', 'a', 'a'] = ['a', 'b'] := by decide
example : fromUtf8 [0x68, 0xC3, 0xA9, 0x0A] = some ['h', 'é', '\n'] := by decide
example : parseI32 "-12".toList = some (-12) := by decide

end EasyTierMac.Rust
