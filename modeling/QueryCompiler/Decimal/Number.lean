import QueryCompiler.Decimal.Rounding
import QueryCompiler.Text.Digits

/-!
# Decimal numbers

A number in decimal notation, its reading from text, and the float nearest to it.
-/

namespace QueryCompiler

/-- The number `± digits * 10 ^ exponent`. -/
structure Decimal where
  negative : Bool
  digits : Nat
  exponent : Int
deriving DecidableEq

namespace Decimal

/-- The decimal with the given digits before and after the point, times a power of ten. -/
def ofParts (negative : Bool) (whole fraction : List Char) (exponent : Int) : Decimal :=
  ⟨negative, Text.digitsValue (whole ++ fraction), exponent - fraction.length⟩

/-- A run of digits with an optional sign, read whole. -/
def signedValue? : List Char → Option Int
  | '-' :: cs => if cs ≠ [] ∧ cs.all Char.isDigit then some (-(Text.digitsValue cs : Int)) else none
  | '+' :: cs => if cs ≠ [] ∧ cs.all Char.isDigit then some (Text.digitsValue cs) else none
  | cs => if cs ≠ [] ∧ cs.all Char.isDigit then some (Text.digitsValue cs) else none

/-- Reads the exponent part that follows the digits: nothing, or `e` and a signed number. -/
def exponent? : List Char → Option Int
  | [] => some 0
  | c :: cs => if c = 'e' ∨ c = 'E' then signedValue? cs else none

/-- The digits before the point, those after it and the exponent in unsigned decimal notation. The
digits before or after the point may be absent, but not both. -/
def parts? (cs : List Char) : Option (List Char × List Char × Int) :=
  let (whole, rest) := Text.spanDigits cs
  let (fraction, rest) := match rest with
    | '.' :: rest => Text.spanDigits rest
    | rest => ([], rest)
  if whole = [] ∧ fraction = [] then none
  else (exponent? rest).map fun exponent => (whole, fraction, exponent)

/-- Reads unsigned decimal notation. -/
def unsigned? (negative : Bool) (cs : List Char) : Option Decimal :=
  (parts? cs).map fun (whole, fraction, exponent) => ofParts negative whole fraction exponent

/-- Reads decimal notation with an optional sign. -/
def ofChars? : List Char → Option Decimal
  | '-' :: cs => unsigned? true cs
  | '+' :: cs => unsigned? false cs
  | cs => unsigned? false cs

/-- The magnitude rounded to a binary format, `none` beyond its largest number. Exponents far
outside every format are decided by the count of digits alone. -/
def magnitude? (format : BinaryFormat) (d : Decimal) : Option BinaryNumber :=
  let place := ((Nat.toDigits 10 d.digits).length : Int) + d.exponent
  if d.digits = 0 ∨ place < -400 then some ⟨0, format.lowest⟩
  else if 400 < place then none
  else format.nearest? (d.digits * tenTo d.exponent.toNat) (tenTo (-d.exponent).toNat)

/-- The float nearest to the decimal, infinite when the decimal is too large. -/
def toFloat (d : Decimal) : Float :=
  floatOfBits d.negative (((d.magnitude? .double).map BinaryNumber.bits).getD infinityBits)

/-- The decimal rounded to single precision first, and held as a float. -/
def toFloatBySingle (d : Decimal) : Float :=
  let bits := do
    let single ← d.magnitude? .single
    if single.mantissa = 0 then return 0
    let (num, den) := single.quotient
    let double ← BinaryFormat.double.nearest? num den
    return double.bits
  floatOfBits d.negative (bits.getD infinityBits)

end Decimal

/-- The float nearest to an integer. -/
def floatOfInt (n : Int) : Float :=
  Decimal.toFloat ⟨n < 0, n.natAbs, 0⟩

end QueryCompiler
