import QueryCompiler.Text.Digits

/-!
# Places in a text

A message about a text may end in a place of the text, as in `... at line 3 column 7`. The end of a
message is read as a place, and a place is written behind a message.

Main statements: what stands in front of an ending is found, and only that; a message that ends in
no place stays as it is.
-/

namespace QueryCompiler.Text

/-- What stands in front of an ending. -/
def beforeEnd? (ending cs : List Char) : Option (List Char) :=
  if ending.isSuffixOf cs then some (cs.take (cs.length - ending.length)) else none

/-- What stands in front of the digits at the end, and their number, which has 64 bits at most. -/
def lastNumber? (cs : List Char) : Option (List Char × Nat) :=
  let digits := (cs.reverse.takeWhile Char.isDigit).reverse
  if digits ≠ [] ∧ digitsValue digits < UInt64.size then
    some (cs.take (cs.length - digits.length), digitsValue digits)
  else none

/-- A place. Lines count from one, so that line zero is nowhere. -/
structure Place where
  line : Nat
  column : Nat
deriving DecidableEq

namespace Place

/-- The message in front of the place that a text ends in, and that place. -/
def atEnd? (text : String) : Option (String × Place) := do
  let (cs, column) ← lastNumber? text.toList
  let (cs, line) ← lastNumber? (← beforeEnd? " column ".toList cs)
  let cs ← beforeEnd? " at line ".toList cs
  return (String.ofList cs, ⟨line, column⟩)

/-- A message with a place behind it. Nowhere is left out. -/
def behind (message : String) (place : Place) : String :=
  if place.line = 0 then message
  else message ++ " at line " ++ toString place.line ++ " column " ++ toString place.column

/-- A message with the place that it ends in, if there is one, in plain numerals. -/
def plain (message : String) : String :=
  match atEnd? message with
  | some (front, place) => behind front place
  | none => message

end Place

theorem beforeEnd?_append (ending cs : List Char) :
    beforeEnd? ending (cs ++ ending) = some cs := by
  simp [beforeEnd?]

theorem eq_append_of_beforeEnd? {ending cs front : List Char}
    (h : beforeEnd? ending cs = some front) : cs = front ++ ending := by
  unfold beforeEnd? at h
  split at h
  · next hs =>
    obtain ⟨before, rfl⟩ := List.isSuffixOf_iff_suffix.mp hs
    simp only [List.length_append, Nat.add_sub_cancel, List.take_left', Option.some.injEq] at h
    rw [h]
  · exact absurd h (by simp)

theorem Place.plain_of_atEnd?_eq_none {message : String} (h : atEnd? message = none) :
    plain message = message := by
  simp [plain, h]

theorem Place.behind_line_zero (message : String) (column : Nat) :
    behind message ⟨0, column⟩ = message := by
  simp [behind]

end QueryCompiler.Text
