import QueryCompiler.Decimal.Scaling
import QueryCompiler.Grammar.Reader
import QueryCompiler.Text.Numeral

/-!
# Tokens of JSON text

Text is cut into brackets, separators, strings, numbers and words, with the blanks, escapes and
numerals of the JSON standard and no others. What is no token is a fault, and nothing behind a fault
is looked at.

Where the standard leaves a choice, this is what is made of a text. A half of a surrogate pair that
stands alone is a fault. A whole number that fits into 64 bits, with a sign bit or without, is kept
whole; any other one is a float, and so is `-0`. A float is read by scaling its digits
(`Decimal.scaled?`) and not by rounding the numeral, so that it may be off in its last places:
`449.49106478873813` is read as `449.4910647887382`. A number beyond the floats is a fault.
-/

namespace QueryCompiler.Json

open Grammar

/-- A token of JSON text. -/
inductive Token
  | openArray
  | closeArray
  | openObject
  | closeObject
  | comma
  | colon
  | null
  | bool (b : Bool)
  | integer (n : Int)
  | float (x : Float)
  | string (s : String)
  /-- The rest of the text has no token at its front. -/
  | fault
deriving DecidableEq

namespace Token

/-- Blanks between tokens. -/
def isBlank (c : Char) : Bool :=
  c = ' ' ∨ c = '\n' ∨ c = '\t' ∨ c = '\r'

/-- A bracket or a separator. -/
def punctuation? (c : Char) : Option Token :=
  if c = '[' then some openArray
  else if c = ']' then some closeArray
  else if c = '\x7b' then some openObject
  else if c = '\x7d' then some closeObject
  else if c = ',' then some comma
  else if c = ':' then some colon
  else none

/-- The value of a hexadecimal digit. -/
def hexDigit? (c : Char) : Option Nat :=
  if c.isDigit then some (c.toNat - '0'.toNat)
  else if 'a' ≤ c ∧ c ≤ 'f' then some (c.toNat - 'a'.toNat + 10)
  else if 'A' ≤ c ∧ c ≤ 'F' then some (c.toNat - 'A'.toNat + 10)
  else none

/-- The value of a run of hexadecimal digits. -/
def hexValue? (cs : List Char) : Option Nat :=
  cs.foldlM (fun n c => (hexDigit? c).map (16 * n + ·)) 0

/-- The code point behind a backslash and one letter. -/
def escaped? (c : Char) : Option Nat :=
  if c = '"' ∨ c = '\\' ∨ c = '/' then some c.toNat
  else if c = 'b' then some 0x08
  else if c = 'f' then some 0x0c
  else if c = 'n' then some 0x0a
  else if c = 'r' then some 0x0d
  else if c = 't' then some 0x09
  else none

/-- Reads the inside of a string up to its closing quote. Each element of the result is a code
point or, where it was escaped by number, possibly half of a surrogate pair. -/
def stringUnits : Reader Char (List Nat)
  | [] => none
  | '"' :: _ => some ([], .tail)
  | '\\' :: 'u' :: a :: b :: c :: d :: cs => do
    let unit ← hexValue? [a, b, c, d]
    let (units, rest) ← stringUnits cs
    return (unit :: units, rest.later.later.later.later.later.later)
  | '\\' :: c :: cs => do
    let unit ← escaped? c
    let (units, rest) ← stringUnits cs
    return (unit :: units, rest.later.later)
  | c :: cs =>
    if c.toNat < 0x20 then none
    else (stringUnits cs).map fun (units, rest) => (c.toNat :: units, rest.later)

/-- Joins surrogate pairs; a half that stands alone is refused. -/
def ofUnits? : List Nat → Option (List Char)
  | [] => some []
  | unit :: rest =>
    if 0xD800 ≤ unit ∧ unit < 0xDC00 then
      match rest with
      | low :: rest =>
        if 0xDC00 ≤ low ∧ low < 0xE000 then
          (ofUnits? rest).map (Char.ofNat (0x10000 + (unit - 0xD800) * 0x400 + (low - 0xDC00)) :: ·)
        else none
      | [] => none
    else if 0xDC00 ≤ unit ∧ unit < 0xE000 then none
    else (ofUnits? rest).map (Char.ofNat unit :: ·)

/-- The numeral at the front is well-formed: no superfluous zero in front, digits behind a point and
in an exponent. -/
def startsWithNumeral (cs : List Char) : Bool :=
  let whole := Text.digitCount cs
  let behindWhole := cs.drop whole
  let fraction := Text.fractionLength behindWhole
  let behindNumber := behindWhole.drop fraction
  whole ≠ 0 ∧ (whole = 1 ∨ cs.head? ≠ some '0') ∧
    (behindWhole.head? = some '.' → fraction ≠ 0) ∧
    (behindNumber.head?.any Text.startsExponent → Text.exponentLength behindNumber ≠ 0)

/-- Whole numbers that are kept whole. -/
def fits (n : Int) : Bool :=
  Int64.minValue.toInt ≤ n ∧ n < UInt64.size

/-- The number that a well-formed numeral writes. -/
def number? (negative : Bool) (numeral : List Char) : Option Token :=
  let magnitude := Int.ofNat (Text.digitsValue numeral)
  let value := if negative then -magnitude else magnitude
  if numeral.all Char.isDigit ∧ fits value ∧ ¬ (negative ∧ value = 0) then some (integer value)
  else do
    let (whole, fraction, exponent) ← Decimal.parts? numeral
    let x ← (Decimal.ofKeptParts negative whole fraction exponent).scaled?
    return float x

/-- Reads the token at the front, which is no blank. -/
def read : Reader Char Token
  | [] => none
  | 'n' :: 'u' :: 'l' :: 'l' :: _ => some (null, .later (.later (.later .tail)))
  | 't' :: 'r' :: 'u' :: 'e' :: _ => some (bool true, .later (.later (.later .tail)))
  | 'f' :: 'a' :: 'l' :: 's' :: 'e' :: _ => some (bool false, .later (.later (.later (.later .tail))))
  | c :: cs =>
    if c = '"' then do
      let (units, rest) ← stringUnits cs
      let text ← ofUnits? units
      return (string (String.ofList text), rest.later)
    else if c = '-' then
      let length := Text.numeralLength cs
      if startsWithNumeral cs then
        (number? true (cs.take length)).map fun token => (token, .behind length)
      else none
    else if c.isDigit then
      let length := Text.numeralLength (c :: cs)
      if startsWithNumeral (c :: cs) then
        (number? false ((c :: cs).take length)).map fun token => (token, .behind (length - 1))
      else none
    else (punctuation? c).map fun token => (token, .tail)

/-- The tokens of a text up to its end or to a fault. -/
def all (cs : List Char) : List Token :=
  match cs with
  | [] => []
  | c :: cs =>
    if isBlank c then all cs
    else match read (c :: cs) with
      | none => [fault]
      | some (token, ⟨rest, _shorter⟩) => token :: all rest
termination_by cs.length
decreasing_by
  · simp only [List.length_cons]
    omega
  · exact _shorter

end Token

end QueryCompiler.Json
