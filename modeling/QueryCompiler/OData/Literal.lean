import QueryCompiler.Calendar.Writing
import QueryCompiler.Decimal.Layout
import QueryCompiler.Value

/-!
# Literals in OData

How a value is written in the options of a request. A string stands between quotes, and a quote in
it is written twice; nothing else is escaped.
-/

namespace QueryCompiler.OData

/-- A character inside a string literal. -/
def quotedChar (c : Char) : List Char :=
  if c = '\'' then ['\'', '\''] else [c]

/-- The literal of a value. A float that is no finite number is null. -/
def literal : Value → String
  | .null => "null"
  | .bool b => if b then "true" else "false"
  | .integer n => toString n.toInt
  | .float x => if x.isFinite then FloatLayout.plain.write x else "null"
  | .string s => String.ofList ('\'' :: s.toList.flatMap quotedChar ++ ['\''])
  | .dateTime t => "datetime'" ++ t.documentText ++ "'"

end QueryCompiler.OData
