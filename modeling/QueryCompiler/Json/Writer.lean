import QueryCompiler.Json.Basic
import QueryCompiler.Decimal.Layout
import QueryCompiler.Text.Digits

/-!
# JSON text

The compact form has no blanks. The indented form puts every member and item on a line of its own,
two blanks deeper than its bracket, and writes empty brackets together.

Both forms are texts of the JSON standard. Where it leaves a choice, members keep their order, a
character is escaped only if the standard asks for it, in the short form if there is one, and a
float is written with the fewest digits from which rounding gives it back. The standard has no text
for a float that is no number: it is written `null`.
-/

namespace QueryCompiler.Json

/-- Numbers between `1e-5` and `1e16` are written positionally with a point, others with a signed
exponent; of two equally short texts the one with the even digit is taken. -/
def floatLayout : FloatLayout := ⟨some (-5, 15), true, true, .toEven⟩

/-- A character inside a quoted string: the quote, the backslash and the control characters are
escaped, all others stand for themselves. -/
def escapeChar (c : Char) : List Char :=
  if c = '"' then ['\\', '"']
  else if c = '\\' then ['\\', '\\']
  else if c = '\x08' then ['\\', 'b']
  else if c = '\x0c' then ['\\', 'f']
  else if c = '\n' then ['\\', 'n']
  else if c = '\r' then ['\\', 'r']
  else if c = '\t' then ['\\', 't']
  else if c.toNat < 0x20 then '\\' :: 'u' :: (Text.paddedHex 4 c.toNat).toList
  else [c]

/-- A string between quotes. -/
def quote (s : String) : String :=
  String.ofList ('"' :: s.toList.flatMap escapeChar ++ ['"'])

/-- The text of a float; a float that is no number has none and is written `null`. -/
def floatText (x : Float) : String :=
  if x.isFinite then floatLayout.write x else "null"

mutual

/-- The compact form. -/
def compact : Json → String
  | .null => "null"
  | .bool b => if b then "true" else "false"
  | .integer n => toString n
  | .float x => floatText x
  | .string s => quote s
  | .array items => "[" ++ compactItems items ++ "]"
  | .object members => "\x7b" ++ compactMembers members ++ "\x7d"

/-- The items with commas between them. -/
def compactItems : List Json → String
  | [] => ""
  | [item] => compact item
  | item :: rest => compact item ++ "," ++ compactItems rest

/-- The members with commas between them. -/
def compactMembers : List (String × Json) → String
  | [] => ""
  | [(key, value)] => quote key ++ ":" ++ compact value
  | (key, value) :: rest => quote key ++ ":" ++ compact value ++ "," ++ compactMembers rest

end

/-- A line break and the blanks of a level. -/
def newline (level : Nat) : String :=
  String.ofList ('\n' :: List.replicate (2 * level) ' ')

mutual

/-- The indented form, for a value that begins on a line of the given level. -/
def indented (level : Nat) : Json → String
  | .array [] => "[]"
  | .array items =>
    "[" ++ newline (level + 1) ++ indentedItems (level + 1) items ++ newline level ++ "]"
  | .object [] => "\x7b\x7d"
  | .object members =>
    "\x7b" ++ newline (level + 1) ++ indentedMembers (level + 1) members ++ newline level ++ "\x7d"
  | .null => "null"
  | .bool b => if b then "true" else "false"
  | .integer n => toString n
  | .float x => floatText x
  | .string s => quote s

/-- The items, each on a line of its own. -/
def indentedItems (level : Nat) : List Json → String
  | [] => ""
  | [item] => indented level item
  | item :: rest => indented level item ++ "," ++ newline level ++ indentedItems level rest

/-- The members, each on a line of its own. -/
def indentedMembers (level : Nat) : List (String × Json) → String
  | [] => ""
  | [(key, value)] => quote key ++ ": " ++ indented level value
  | (key, value) :: rest =>
    quote key ++ ": " ++ indented level value ++ "," ++ newline level ++ indentedMembers level rest

end

/-- The indented form of a whole document. -/
def pretty (json : Json) : String :=
  indented 0 json

end QueryCompiler.Json
