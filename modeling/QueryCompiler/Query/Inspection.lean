import QueryCompiler.Query.Basic
import QueryCompiler.Calendar.Writing
import QueryCompiler.Decimal.Layout
import QueryCompiler.Text.Joined
import QueryCompiler.Text.Quoted

/-!
# Showing a query's parts

The text by which an error message shows a value or a field: the name of each kind with its parts
by name, whatever the part contains.
-/

namespace QueryCompiler

namespace Inspection

/-- Floats are shown positionally between `1e-4` and `1e16`. -/
def floatLayout : FloatLayout := ⟨some (-4, 15), true, false, .up⟩

/-- A float, a number or not. -/
def float (x : Float) : String :=
  if x.isFinite then floatLayout.write x
  else if x.isNaN then "NaN"
  else if floatIsNegative x then "-inf"
  else "inf"

/-- A truth value. -/
def bool (b : Bool) : String :=
  if b then "true" else "false"

/-- A kind with unnamed parts. -/
def tuple (kind : String) (part : String) : String :=
  kind ++ "(" ++ part ++ ")"

/-- A kind with named parts. -/
def record (kind : String) (parts : List (String × String)) : String :=
  kind ++ " \x7b " ++ Text.joined ", " (parts.map fun (name, part) => name ++ ": " ++ part) ++ " \x7d"

/-- Items between brackets. -/
def list (items : List String) : String :=
  "[" ++ Text.joined ", " items ++ "]"

/-- A part that may be absent. -/
def option : Option String → String
  | none => "None"
  | some part => tuple "Some" part

/-- A text that may be absent. -/
def optionText (text : Option String) : String :=
  option (text.map Text.quoted)

end Inspection

open Inspection

/-- The text that shows a value. -/
def Value.inspect : Value → String
  | .null => "Null"
  | .bool b => tuple "Bool" (Inspection.bool b)
  | .integer n => tuple "Int" (toString n.toInt)
  | .float x => tuple "Float" (Inspection.float x)
  | .string s => tuple "String" (Text.quoted s)
  | .dateTime t => tuple "DateTime" t.exactText

/-- The text that shows a comparison. -/
def ComparisonOp.inspect : ComparisonOp → String
  | .eq => "Eq"
  | .ne => "Ne"
  | .gt => "Gt"
  | .gte => "Gte"
  | .lt => "Lt"
  | .lte => "Lte"
  | .isIn => "In"
  | .notIn => "Nin"

/-- The text that shows a connective. -/
def Connective.inspect : Connective → String
  | .and => "And"
  | .or => "Or"

/-- The text that shows an aggregate. -/
def Aggregate.inspect : Aggregate → String
  | .count => "Count"
  | .min => "Min"
  | .max => "Max"
  | .avg => "Avg"
  | .sum => "Sum"

/-- The text that shows a direction. -/
def Direction.inspect : Direction → String
  | .ascending => "Asc"
  | .descending => "Desc"

/-- The text that shows a side of an equi-join. -/
def JoinSide.inspect (side : JoinSide) : String :=
  record "JoinSide" [("entity", Text.quoted side.entity),
    ("fields", list (side.columns.map Text.quoted))]

mutual

/-- The text that shows a field. -/
def Field.inspect : Field → String
  | .name name => tuple "Name" (Text.quoted name)
  | .qualified entity name =>
    record "Qualified" [("entity", Text.quoted entity), ("name", Text.quoted name)]
  | .labelled label expression =>
    record "Aliased" [("alias", Text.quoted label), ("expr", Text.quoted expression)]
  | .aggregate label aggregate name =>
    record "Aggregate" [("alias", Text.quoted label), ("func", aggregate.inspect),
      ("name", Text.quoted name)]
  | .function label function arguments =>
    record "Function" [("alias", Text.quoted label), ("func", Text.quoted function),
      ("args", list (Operand.inspectAll arguments))]
  | .constant value label =>
    record "Constant" [("value", value.inspect), ("alias", optionText label)]

/-- The texts that show fields. -/
def Field.inspectAll : List Field → List String
  | [] => []
  | field :: rest => field.inspect :: Field.inspectAll rest

/-- The text that shows an operand. -/
def Operand.inspect : Operand → String
  | .value value => tuple "Value" value.inspect
  | .field field => tuple "Field" field.inspect
  | .list items => tuple "List" (list (Operand.inspectAll items))
  | .query query => tuple "Query" query.inspect

/-- The texts that show operands. -/
def Operand.inspectAll : List Operand → List String
  | [] => []
  | operand :: rest => operand.inspect :: Operand.inspectAll rest

/-- The text that shows a test. -/
def Test.inspect : Test → String
  | ⟨op, operand⟩ => record "Comparison" [("op", op.inspect), ("operand", operand.inspect)]

/-- The texts that show tests. -/
def Test.inspectAll : List Test → List String
  | [] => []
  | test :: rest => test.inspect :: Test.inspectAll rest

/-- The text that shows a filter. -/
def Filter.inspect : Filter → String
  | .logical connective operands =>
    record "Logical" [("op", connective.inspect), ("operands", list (Filter.inspectAll operands))]
  | .compare field test =>
    record "Compare" [("field", Text.quoted field), ("comparison", test.inspect)]
  | .function field function arguments tests =>
    record "Function" [("field", Text.quoted field), ("name", Text.quoted function),
      ("args", list (Operand.inspectAll arguments)), ("tests", list (Test.inspectAll tests))]

/-- The texts that show filters. -/
def Filter.inspectAll : List Filter → List String
  | [] => []
  | filter :: rest => filter.inspect :: Filter.inspectAll rest

/-- The text that shows an entity. -/
def Entity.inspect : Entity → String
  | ⟨name, fields, label⟩ =>
    record "QueryEntity" [("name", Text.quoted name), ("fields", list (Field.inspectAll fields)),
      ("alias", optionText label)]

/-- The texts that show assignments. -/
def Assignment.inspectAll : List Assignment → List String
  | [] => []
  | ⟨column, operand⟩ :: rest =>
    (Text.quoted column ++ ": " ++ operand.inspect) :: Assignment.inspectAll rest

/-- The text that shows a statement. -/
def Statement.inspect : Statement → String
  | .select entity fields =>
    tuple "Select" (record "SelectClause" [("entity", Text.quoted entity),
      ("fields", list (Field.inspectAll fields))])
  | .insert entity values =>
    tuple "Insert" (record "EntityValues" [("entity", Text.quoted entity),
      ("values", "\x7b" ++ Text.joined ", " (Assignment.inspectAll values) ++ "\x7d")])
  | .update entity values =>
    tuple "Update" (record "EntityValues" [("entity", Text.quoted entity),
      ("values", "\x7b" ++ Text.joined ", " (Assignment.inspectAll values) ++ "\x7d")])
  | .delete entity => tuple "Delete" (Text.quoted entity)

/-- The text that shows what is joined. -/
def JoinTarget.inspect : JoinTarget → String
  | .entity entity => tuple "Entity" entity.inspect
  | .query query => tuple "Query" query.inspect

/-- The text that shows a join's condition. -/
def JoinCondition.inspect : JoinCondition → String
  | .columns sides => tuple "Columns" (list (sides.map JoinSide.inspect))
  | .filter filter => tuple "Filter" filter.inspect

/-- The texts that show joins. -/
def Join.inspectAll : List Join → List String
  | [] => []
  | ⟨target, condition, label⟩ :: rest =>
    record "JoinExpression" [("target", target.inspect), ("on", condition.inspect),
      ("alias", optionText label)] :: Join.inspectAll rest

/-- The texts that show orderings. -/
def Order.inspectAll : List Order → List String
  | [] => []
  | ⟨direction, fields⟩ :: rest =>
    record "OrderBy" [("direction", direction.inspect), ("fields", list (Field.inspectAll fields))]
      :: Order.inspectAll rest

/-- The text that shows what waits for its other half. -/
def Staged.inspect : Staged → String
  | ⟨field, connective, fields, target⟩ =>
    record "Pending" [("field", optionText field),
      ("connector", option (connective.map Connective.inspect)),
      ("fields", option (match fields with
        | none => none
        | some fields => some (list (Field.inspectAll fields)))),
      ("join", option (match target with
        | none => none
        | some target => some target.inspect))]

/-- The text that shows a query. -/
def Query.inspect : Query → String
  | ⟨statement, joins, filter, prepared, orders, groups, distinct, fixed, skip, take, label, staged⟩ =>
    record "QueryExpression" [
      ("statement", option (match statement with
        | none => none
        | some statement => some statement.inspect)),
      ("expand", list (Join.inspectAll joins)),
      ("filter", option (match filter with
        | none => none
        | some filter => some filter.inspect)),
      ("prepared", option (match prepared with
        | none => none
        | some prepared => some prepared.inspect)),
      ("order", list (Order.inspectAll orders)),
      ("group", list (Field.inspectAll groups)),
      ("distinct", Inspection.bool distinct),
      ("fixed", Inspection.bool fixed),
      ("skip", option (skip.map toString)),
      ("take", option (take.map toString)),
      ("alias", optionText label),
      ("pending", staged.inspect)]

end

end QueryCompiler
