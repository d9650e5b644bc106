import QueryCompiler.Decimal.Number

/-!
# Floats by scaling

A quick reading of decimal notation that rounds more than once. The digits that fit into 64 bits
make a significand (`Decimal.ofKeptParts`), the significand is rounded to a float, and this float is
multiplied with a power of ten or divided by one (`Decimal.scaled?`). So the result may be off in
its last places from the nearest float, which `Decimal.toFloat` gives. While all digits fit, none is
lost (`Decimal.ofKeptParts_eq_ofParts`).
-/

namespace QueryCompiler.Decimal

/-- Appends digits to a significand up to the first one with which it would not fit into 64 bits,
and counts the digits that are left over. -/
def appendDigits (significand : Nat) : List Char → Nat × Nat
  | [] => (significand, 0)
  | c :: cs =>
    let longer := 10 * significand + (c.toNat - '0'.toNat)
    if longer < UInt64.size then appendDigits longer cs else (significand, cs.length + 1)

/-- The decimal with the given digits before and after the point, times a power of ten, as far as
its digits fit into 64 bits. Digits before the point that are left over still count as places. -/
def ofKeptParts (negative : Bool) (whole fraction : List Char) (exponent : Int) : Decimal :=
  let (significand, places) := appendDigits 0 whole
  let (digits, unread) := appendDigits significand fraction
  ⟨negative, digits, exponent + places - (fraction.length - unread)⟩

/-- The exponent of the largest power of ten that is a float. -/
def largestPower : Nat := 308

/-- A power of ten as a float. -/
def powerOfTen (n : Nat) : Float :=
  toFloat ⟨false, 1, n⟩

/-- Divides by a power of ten, more than once if the power is no float. -/
def dividedByPower (x : Float) (n : Nat) : Float :=
  if n ≤ largestPower then x / powerOfTen n
  else if x == 0 then x
  else dividedByPower (x / powerOfTen largestPower) (n - largestPower)
termination_by n
decreasing_by
  simp only [largestPower] at *
  omega

/-- The magnitude by scaling, infinite or nothing when the decimal is too large. -/
def scaledMagnitude? (d : Decimal) : Option Float :=
  let x := toFloat ⟨false, d.digits, 0⟩
  if d.exponent < 0 then some (dividedByPower x d.exponent.natAbs)
  else if d.exponent ≤ largestPower then some (x * powerOfTen d.exponent.toNat)
  else if x == 0 then some x
  else none

/-- The float by scaling, nothing when the decimal is too large. -/
def scaled? (d : Decimal) : Option Float :=
  match d.scaledMagnitude? with
  | some x => if x.isFinite then some (if d.negative then -x else x) else none
  | none => none

theorem appendDigits_lt {significand : Nat} (h : significand < UInt64.size) (cs : List Char) :
    (appendDigits significand cs).1 < UInt64.size := by
  induction cs generalizing significand with
  | nil => exact h
  | cons c cs ih =>
    rw [appendDigits]
    split
    · rename_i hlonger
      exact ih hlonger
    · exact h

/-- Digits that fit are all appended. -/
theorem appendDigits_digitsValue {cs ds : List Char}
    (h : Text.digitsValue (cs ++ ds) < UInt64.size) :
    appendDigits (Text.digitsValue cs) ds = (Text.digitsValue (cs ++ ds), 0) := by
  induction ds generalizing cs with
  | nil => rw [List.append_nil, appendDigits]
  | cons d ds ih =>
    rw [← List.singleton_append, ← List.append_assoc] at h ⊢
    have hlonger := Nat.lt_of_le_of_lt (Text.digitsValue_le_append (cs ++ [d]) ds) h
    rw [Text.digitsValue_concat] at hlonger
    rw [List.singleton_append, appendDigits, if_pos hlonger, ← Text.digitsValue_concat, ih h]

theorem digits_ofKeptParts_lt (negative : Bool) (whole fraction : List Char) (exponent : Int) :
    (ofKeptParts negative whole fraction exponent).digits < UInt64.size :=
  appendDigits_lt (appendDigits_lt (by decide) whole) fraction

/-- A decimal whose digits fit is kept as it is. -/
theorem ofKeptParts_eq_ofParts (negative : Bool) {whole fraction : List Char} (exponent : Int)
    (h : Text.digitsValue (whole ++ fraction) < UInt64.size) :
    ofKeptParts negative whole fraction exponent = ofParts negative whole fraction exponent := by
  have hwhole : Text.digitsValue ([] ++ whole) < UInt64.size :=
    Nat.lt_of_le_of_lt (Text.digitsValue_le_append whole fraction) h
  have hkept : appendDigits 0 whole = (Text.digitsValue whole, 0) :=
    appendDigits_digitsValue hwhole
  simp [ofKeptParts, ofParts, hkept, appendDigits_digitsValue h]

end QueryCompiler.Decimal
