import QueryCompiler.Document.Reading
import QueryCompiler.Json.Reading
import QueryCompiler.Text.Place

/-!
# Reading text

A text is read as one value, and the value as a document. The value is looked at before what comes
behind it, so that a document that is refused is told as such whatever follows.

A cause that ends in a place is told with that place in plain numerals.
-/

namespace QueryCompiler

/-- Why a text is no document. -/
inductive TextFault
  /-- The text is not one value. -/
  | malformed
  | refused (error : QueryError)

/-- The words for a fault. What the parser says of a malformed text is not modelled: three dots
stand in its place. -/
def TextFault.message : TextFault → String
  | malformed => "..."
  | refused error => Text.Place.plain error.message

/-- What `read` makes of the value that a text writes. -/
def readText {α : Type} (read : Json → Except QueryError α) (text : String) :
    Except TextFault α :=
  match Json.ofFront? text with
  | none => .error .malformed
  | some (json, complete) => match read json with
    | .error e => .error (.refused e)
    | .ok a => if complete then .ok a else .error .malformed

/-- The query that a text writes. -/
def Query.ofText (text : String) : Except TextFault Query :=
  readText Query.ofJson text

end QueryCompiler
