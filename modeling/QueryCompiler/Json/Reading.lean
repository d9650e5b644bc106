import QueryCompiler.Json.Basic
import QueryCompiler.Json.Token

/-!
# Reading JSON text

Strict JSON, as the standard has it: one value with blanks around it. Where the standard leaves a
choice, at most `Json.deepest` arrays and objects stand inside one another, and a key that comes
again keeps its first place and takes its last value.
-/

namespace QueryCompiler.Json

open Grammar

/-- How many arrays and objects may be open at once. -/
def deepest : Nat := 127

/-- A value of one token. -/
def scalar? : Token → Option Json
  | .null => some .null
  | .bool b => some (.bool b)
  | .integer n => some (.integer n)
  | .float x => some (.float x)
  | .string s => some (.string s)
  | _ => none

/-- A member's key. -/
def key? : Token → Option String
  | .string s => some s
  | _ => none

/-- A member whose value is read by `value`. -/
def memberReader (value : Reader Token Json) : Reader Token (String × Json) :=
  (Reader.item key?).andThen fun key =>
    (Reader.exactly Token.colon).andThen fun _ => value.map fun v => (key, v)

/-- Reads a value in which at most `depth` arrays and objects are open at once. -/
def reader : (depth : Nat) → Reader Token Json
  | 0 => Reader.item scalar?
  | depth + 1 =>
    let array := (Reader.exactly Token.openArray).andThen fun _ =>
      ((reader depth).enclosed .comma .closeArray).map .array
    let object := (Reader.exactly Token.openObject).andThen fun _ =>
      ((memberReader (reader depth)).enclosed .comma .closeObject).map fun members =>
        .object (distinctMembers members)
    (Reader.item scalar?).orElse (array.orElse object)

/-- The value at the front of a text, and whether it is all of the text. -/
def ofFront? (text : String) : Option (Json × Bool) :=
  (reader deepest (Token.all text.toList)).map fun (json, rest) => (json, rest.1.isEmpty)

/-- The value that a text writes. -/
def ofText? (text : String) : Option Json :=
  match ofFront? text with
  | some (json, true) => some json
  | _ => none

end QueryCompiler.Json
