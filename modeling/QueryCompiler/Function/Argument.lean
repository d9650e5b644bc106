import QueryCompiler.Value

/-!
# Arguments of functions

A function is rendered over arguments that are SQL already. An argument remembers what a renderer
may ask of the literal that it was: whether it was null, which integer it was, and the text that may
stand inside a quoted pattern.
-/

namespace QueryCompiler

/-- An argument in SQL. -/
structure Argument where
  sql : String
  /-- The text inside a pattern; only literals other than null have one. -/
  pattern : Option String := none
  isNull : Bool := false
  /-- The integer that the argument is. -/
  integer : Option Int64 := none
deriving DecidableEq

namespace Argument

/-- An argument that is no literal. -/
def raw (sql : String) : Argument := { sql }

/-- The null literal. -/
def null : Argument := { sql := "NULL", isNull := true }

/-- A literal without quotes. -/
def scalar (sql : String) : Argument := { sql, pattern := some sql }

/-- An integer. -/
def ofInteger (n : Int64) : Argument :=
  { scalar (toString n.toInt) with integer := some n }

/-- The text between the quotes of a literal, if it has quotes. -/
def quotedBody? (sql : String) : Option String :=
  match sql.toList with
  | '\'' :: rest => if rest.getLast? = some '\'' then some (String.ofList rest.dropLast) else none
  | _ => none

/-- A quoted literal. -/
def quoted (sql : String) : Argument := { sql, pattern := quotedBody? sql }

/-- The argument at a place, unless it is null. -/
def present? (args : List Argument) (i : Nat) : Option Argument :=
  args[i]?.filter fun arg => !arg.isNull

/-- The SQL at a place, and `NULL` where there is no argument. -/
def sqlAt (args : List Argument) (i : Nat) : String :=
  (args[i]?.map Argument.sql).getD "NULL"

theorem quotedBody?_quote (body : List Char) :
    quotedBody? (String.ofList ('\'' :: body ++ ['\''])) = some (String.ofList body) := by
  simp [quotedBody?]

end Argument

end QueryCompiler
