import QueryCompiler.Calendar.DateTime

/-!
# Literal values

What a query compares with, stores or passes to a function without naming a column.
-/

namespace QueryCompiler

/-- A literal. -/
inductive Value
  | null
  | bool (b : Bool)
  | integer (n : Int64)
  | float (x : Float)
  | string (s : String)
  | dateTime (t : DateTime)
deriving DecidableEq

/-- The word of 64 bits for an integer, if it has one. -/
def int64? (n : Int) : Option Int64 :=
  if Int64.minValue.toInt ≤ n ∧ n ≤ Int64.maxValue.toInt then some (Int64.ofInt n) else none

namespace Value

/-- The null literal. -/
def isNull : Value → Bool
  | null => true
  | _ => false

/-- Equality by value, under which a float that is no number differs from itself and the two zeros
are equal. -/
def equal : Value → Value → Bool
  | float x, float y => x == y
  | v, w => v = w

end Value

theorem int64?_toInt (n : Int64) : int64? n.toInt = some n := by
  have h₁ : Int64.minValue.toInt ≤ n.toInt := Int64.le_toInt n
  have h₂ : n.toInt ≤ Int64.maxValue.toInt := Int64.toInt_le n
  rw [int64?, if_pos ⟨h₁, h₂⟩, Int64.ofInt_toInt]

end QueryCompiler
