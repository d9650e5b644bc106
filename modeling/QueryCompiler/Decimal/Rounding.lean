import QueryCompiler.Decimal.Power

/-!
# Rounding to a binary format

A quotient of two natural numbers is rounded to the nearest number `m * 2 ^ q` that a binary
floating-point format can hold, a tie going to the even `m`. All arithmetic is exact; only the
last step packs the result into the bits of a `Float`.
-/

namespace QueryCompiler

/-- The numbers `m * 2 ^ q` with `m < 2 ^ precision` and `lowest ≤ q ≤ highest`. -/
structure BinaryFormat where
  precision : Nat
  lowest : Int
  highest : Int

/-- The format of a `Float`. -/
def BinaryFormat.double : BinaryFormat := ⟨53, -1074, 971⟩

/-- The format of half that width. -/
def BinaryFormat.single : BinaryFormat := ⟨24, -149, 104⟩

/-- The number `mantissa * 2 ^ exponent`. -/
structure BinaryNumber where
  mantissa : Nat
  exponent : Int
deriving DecidableEq

/-- The integer nearest to `num / den`, a half going to the even neighbour. -/
def divNearest (num den : Nat) : Nat :=
  let q := num / den
  let r := num % den
  if den < 2 * r ∨ (den = 2 * r ∧ q % 2 = 1) then q + 1 else q

/-- `num / den / 2 ^ q` as a quotient of natural numbers. -/
def scaleDown (num den : Nat) (q : Int) : Nat × Nat :=
  (num * twoTo (-q).toNat, den * twoTo q.toNat)

/-- The number of the format nearest to `num / den`, or `none` when that lies beyond its largest. -/
def BinaryFormat.nearest? (format : BinaryFormat) (num den : Nat) : Option BinaryNumber :=
  let coarse := max format.lowest ((num.log2 : Int) - den.log2 - format.precision)
  let (n, d) := scaleDown num den coarse
  let q := if twoTo format.precision ≤ n / d then coarse + 1 else coarse
  let (n, d) := scaleDown num den q
  let m := divNearest n d
  let rounded : BinaryNumber := if m = twoTo format.precision then ⟨m / 2, q + 1⟩ else ⟨m, q⟩
  if format.highest < rounded.exponent then none else some rounded

/-- The number as a quotient of natural numbers. -/
def BinaryNumber.quotient (x : BinaryNumber) : Nat × Nat :=
  (x.mantissa * twoTo x.exponent.toNat, twoTo (-x.exponent).toNat)

/-- The bits of a number of the double format whose mantissa is as large as it can be. -/
def BinaryNumber.bits (x : BinaryNumber) : Nat :=
  if x.mantissa < twoTo 52 then x.mantissa
  else (x.exponent + 1075).toNat * twoTo 52 + (x.mantissa - twoTo 52)

/-- The bits of positive infinity. -/
def infinityBits : Nat := 0x7ff0000000000000

/-- A float from its sign and the bits of its magnitude. -/
def floatOfBits (negative : Bool) (magnitude : Nat) : Float :=
  Float.ofBits (UInt64.ofNat (if negative then twoTo 63 + magnitude else magnitude))

/-- The magnitude of a finite float, as a number of the double format. -/
def floatMagnitude (x : Float) : BinaryNumber :=
  let bits := x.toBits.toNat % twoTo 63
  let exponent : Nat := bits / twoTo 52
  if exponent = 0 then ⟨bits, -1074⟩ else ⟨bits % twoTo 52 + twoTo 52, Int.ofNat exponent - 1075⟩

/-- Whether the sign bit is set, as it is for `-0.0`. -/
def floatIsNegative (x : Float) : Bool :=
  twoTo 63 ≤ x.toBits.toNat

end QueryCompiler
