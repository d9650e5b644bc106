import QueryCompiler.Calendar.Writing
import QueryCompiler.Decimal.Layout
import QueryCompiler.Value

/-!
# Literals in SQL

How a value is written in a statement. Only strings and dates stand between quotes, and inside a
string every character that could end it or that is not fit to be shown is escaped by a backslash.
-/

namespace QueryCompiler

/-- How the literals of a database are written. -/
structure Dialect where
  literal : Value → String

namespace Dialect

/-- A character of a string literal. -/
def escapeChar (c : Char) : List Char :=
  if c = '\x00' then ['\\', '0']
  else if c = '\x08' then ['\\', 'b']
  else if c = '\t' then ['\\', 't']
  else if c = '\n' then ['\\', 'n']
  else if c = '\r' then ['\\', 'r']
  else if c = '\x1a' then ['\\', 'Z']
  else if c = '"' then ['\\', '"']
  else if c = '\'' then ['\\', '\'']
  else if c = '\\' then ['\\', '\\']
  else [c]

/-- A string literal. -/
def quoteEscaped (s : String) : String :=
  String.ofList ('\'' :: s.toList.flatMap escapeChar ++ ['\''])

/-- A string literal in which a quote is written twice and nothing else is escaped. -/
def quoteDoubled (s : String) : String :=
  String.ofList ('\'' :: (s.toList.flatMap fun c => if c = '\'' then ['\'', '\''] else [c]) ++ ['\''])

/-- The literal of a value, given how strings are written. -/
def literalWith (quote : String → String) : Value → String
  | .null => "NULL"
  | .bool b => if b then "true" else "false"
  | .integer n => toString n.toInt
  | .float x => if x.isFinite then FloatLayout.plain.write x else "NULL"
  | .string s => quote s
  | .dateTime t => "'" ++ t.statementText ++ "'"

/-- The dialect with backslashes. -/
def mysql : Dialect := ⟨literalWith quoteEscaped⟩

/-- The dialect in which a quote is doubled. -/
def ansi : Dialect := ⟨literalWith quoteDoubled⟩

/-- The dialect in which a string is marked as one of the national character set. -/
def national : Dialect := ⟨literalWith fun s => "N" ++ quoteEscaped s⟩

end Dialect

end QueryCompiler
