/-!
# Decimal digits

Runs of the ten ASCII digits: taking one off the front of a text, its value, and a number written
to a least width with leading zeros.
-/

namespace QueryCompiler.Text

/-- The longest run of digits at the front, and what follows it. -/
def spanDigits (cs : List Char) : List Char × List Char :=
  cs.span Char.isDigit

/-- The number that a run of digits writes. -/
def digitsValue (cs : List Char) : Nat :=
  cs.foldl (fun n c => 10 * n + (c.toNat - '0'.toNat)) 0

/-- `n` in decimal, with zeros in front up to `width` digits. -/
def padded (width n : Nat) : String :=
  let digits := Nat.toDigits 10 n
  String.ofList (List.replicate (width - digits.length) '0' ++ digits)

/-- `n` in lower-case hexadecimal, with zeros in front up to `width` digits. -/
def paddedHex (width n : Nat) : String :=
  let digits := Nat.toDigits 16 n
  String.ofList (List.replicate (width - digits.length) '0' ++ digits)

theorem digitsValue_concat (cs : List Char) (c : Char) :
    digitsValue (cs ++ [c]) = 10 * digitsValue cs + (c.toNat - '0'.toNat) := by
  simp [digitsValue]

/-- Digits behind a number do not make it smaller. -/
theorem digitsValue_le_append (cs ds : List Char) : digitsValue cs ≤ digitsValue (cs ++ ds) := by
  induction ds generalizing cs with
  | nil => simp
  | cons d ds ih =>
    have hone : digitsValue cs ≤ digitsValue (cs ++ [d]) := by
      rw [digitsValue_concat]
      omega
    have hrest := ih (cs ++ [d])
    rw [List.append_assoc, List.singleton_append] at hrest
    exact Nat.le_trans hone hrest

end QueryCompiler.Text
