import QueryCompiler.Text.Digits

/-!
# Numerals

How much of a text its leading numeral takes up: digits, then a point with digits behind it, then an
exponent with digits. A point or an exponent without digits belongs to what follows.
-/

namespace QueryCompiler.Text

/-- How many digits stand at the front. -/
def digitCount (cs : List Char) : Nat :=
  (cs.takeWhile Char.isDigit).length

/-- How long a point with digits behind it is, nothing without digits. -/
def fractionLength : List Char → Nat
  | '.' :: cs => if digitCount cs = 0 then 0 else digitCount cs + 1
  | _ => 0

/-- The character begins an exponent. -/
def startsExponent (c : Char) : Bool :=
  c = 'e' ∨ c = 'E'

/-- How long an exponent is, nothing without digits. -/
def exponentLength : List Char → Nat
  | c :: cs =>
    if startsExponent c then
      let sign := if cs.head? = some '+' ∨ cs.head? = some '-' then 1 else 0
      let digits := digitCount (cs.drop sign)
      if digits = 0 then 0 else 1 + sign + digits
    else 0
  | [] => 0

/-- How long the numeral at the front is. -/
def numeralLength (cs : List Char) : Nat :=
  let whole := digitCount cs
  let number := whole + fractionLength (cs.drop whole)
  number + exponentLength (cs.drop number)

end QueryCompiler.Text
