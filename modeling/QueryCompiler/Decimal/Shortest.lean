import QueryCompiler.Decimal.Rounding

/-!
# The fewest digits that read back

A positive binary number is the only one of its format in an interval around it. The multiples of
a power of ten form a grid, and `shortest` finds the coarsest grid with a point in that interval;
of two such points it takes the nearer, and a tie goes the way the caller asks.
-/

namespace QueryCompiler

/-- Where a tie between two neighbouring decimals goes. -/
inductive Tie
  | toEven
  | up
deriving DecidableEq

/-- The number `digits * 10 ^ exponent`. -/
structure Digits where
  digits : Nat
  exponent : Int
deriving DecidableEq

/-- The interval of reals that round to a number of the double format, in units of a quarter of
its last place: `lower`, the number itself and `upper`. -/
structure RoundingInterval where
  lower : Nat
  centre : Nat
  upper : Nat
  /-- The ends round to the number too, as a tie goes to the even mantissa. -/
  closed : Bool
  /-- The power of two that is the unit. -/
  unit : Int

/-- The interval around a number. The gap below is half as wide at a power of two. -/
def BinaryNumber.interval (x : BinaryNumber) : RoundingInterval where
  lower := 4 * x.mantissa - (if x.mantissa = twoTo 52 ∧ -1074 < x.exponent then 1 else 2)
  centre := 4 * x.mantissa
  upper := 4 * x.mantissa + 2
  closed := x.mantissa % 2 = 0
  unit := x.exponent - 2

namespace RoundingInterval

/-- What a grid step of `10 ^ k` and the unit amount to in a measure common to both. -/
def measures (interval : RoundingInterval) (k : Int) : Nat × Nat :=
  (tenTo k.toNat * twoTo (-interval.unit).toNat, twoTo interval.unit.toNat * tenTo (-k).toNat)

/-- The point `c * 10 ^ k` lies in the interval. -/
def holds (interval : RoundingInterval) (k : Int) (c : Nat) : Bool :=
  let (step, unit) := interval.measures k
  if interval.closed then interval.lower * unit ≤ c * step ∧ c * step ≤ interval.upper * unit
  else interval.lower * unit < c * step ∧ c * step < interval.upper * unit

/-- The point of the grid `10 ^ k` in the interval that is nearest to its centre. -/
def point? (tie : Tie) (interval : RoundingInterval) (k : Int) : Option Nat :=
  let (step, unit) := interval.measures k
  let centre := interval.centre * unit
  let below := centre / step
  match interval.holds k below, interval.holds k (below + 1) with
  | false, false => none
  | true, false => some below
  | false, true => some (below + 1)
  | true, true =>
    let left := centre - below * step
    let right := (below + 1) * step - centre
    if left < right then some below
    else if right < left then some (below + 1)
    else match tie with
      | .up => some (below + 1)
      | .toEven => some (if below % 2 = 0 then below else below + 1)

/-- Tries the grids `10 ^ k`, `10 ^ (k - 1)`, … in turn, as many as `grids` says. -/
def search (tie : Tie) (interval : RoundingInterval) : (grids : Nat) → (k : Int) → Digits
  | 0, k => ⟨interval.centre, k⟩
  | grids + 1, k =>
    match interval.point? tie k with
    | some c => ⟨c, k⟩
    | none => search tie interval grids (k - 1)

end RoundingInterval

/-- The shortest decimal that reads back as the given positive number. The search starts at a
power of ten above the number and needs fewer than twenty grids, as seventeen digits always do. -/
def BinaryNumber.shortest (tie : Tie) (x : BinaryNumber) : Digits :=
  let bitLength := (x.mantissa.log2 : Int) + 1 + x.exponent
  x.interval.search tie 24 (bitLength * 30103 / 100000 + 1)

end QueryCompiler
