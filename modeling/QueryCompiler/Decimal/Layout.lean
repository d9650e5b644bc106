import QueryCompiler.Decimal.Shortest

/-!
# Layouts of a float's text

A layout says which exponents are written positionally and how the rest looks. The digits are
always the fewest that read back.
-/

namespace QueryCompiler

/-- How a finite float is laid out as text. -/
structure FloatLayout where
  /-- The exponents of the leading digit that are written positionally; all of them if absent. -/
  positional : Option (Int × Int)
  /-- A whole number written positionally ends in `.0`. -/
  pointZero : Bool
  /-- A positive exponent carries its sign. -/
  plusSign : Bool
  /-- Which of two equally near shortest decimals is written. -/
  tie : Tie

namespace FloatLayout

/-- `digits * 10 ^ exponent` without an exponent mark. -/
def positionally (layout : FloatLayout) (digits : List Char) (exponent : Int) : List Char :=
  let point := digits.length + exponent
  if 0 ≤ exponent then
    digits ++ List.replicate exponent.toNat '0' ++ (if layout.pointZero then ['.', '0'] else [])
  else if 0 < point then
    digits.take point.toNat ++ '.' :: digits.drop point.toNat
  else
    '0' :: '.' :: List.replicate (-point).toNat '0' ++ digits

/-- One digit, the others behind a point, and the exponent of the first. -/
def scientifically (layout : FloatLayout) (digits : List Char) (leading : Int) : List Char :=
  let mantissa := match digits with
    | [] => []
    | [d] => [d]
    | d :: ds => d :: '.' :: ds
  let sign := if leading < 0 then ['-'] else if layout.plusSign then ['+'] else []
  mantissa ++ 'e' :: sign ++ Nat.toDigits 10 leading.natAbs

/-- The text of a positive number. -/
def positive (layout : FloatLayout) (x : BinaryNumber) : List Char :=
  let shortest := x.shortest layout.tie
  let digits := Nat.toDigits 10 shortest.digits
  let leading := digits.length + shortest.exponent - 1
  let inRange := match layout.positional with
    | none => true
    | some (low, high) => low ≤ leading && leading ≤ high
  if inRange then layout.positionally digits shortest.exponent
  else layout.scientifically digits leading

/-- The text of a finite float. The sign of zero is kept. -/
def write (layout : FloatLayout) (x : Float) : String :=
  let magnitude := floatMagnitude x
  let digits :=
    if magnitude.mantissa = 0 then '0' :: (if layout.pointZero then ['.', '0'] else [])
    else layout.positive magnitude
  String.ofList (if floatIsNegative x then '-' :: digits else digits)

/-- Every digit is written out and a whole number has no point. -/
def plain : FloatLayout := ⟨none, false, false, .up⟩

end FloatLayout

end QueryCompiler
