import QueryCompiler.Json.Writer
import QueryCompiler.Calendar.Writing
import QueryCompiler.Digest.Sha256
import QueryCompiler.Query.Basic
import QueryCompiler.Query.Filter

/-!
# Queries as documents

The JSON document of a query and of each of its parts. Keys that begin with `$` are reserved, all
others are names of the user. Parts that say nothing are left out, and the keys of a document
stand in a fixed order, so that equal queries have equal documents. Staged parts are not written.
-/

namespace QueryCompiler

/-- The document of a literal. -/
def Value.toJson : Value → Json
  | .null => .null
  | .bool b => .bool b
  | .integer n => .integer n.toInt
  | .float x => if x.isFinite then .float x else .null
  | .string s => .string s
  | .dateTime t => .single "$date" (.string t.documentText)

/-- The document of a side of an equi-join. -/
def JoinSide.toJson (side : JoinSide) : Json :=
  .single side.entity (.array (side.columns.map .string))

/-- A member for a part that may be absent. -/
def optionalMember (key : String) : Option Json → List (String × Json)
  | none => []
  | some value => [(key, value)]

/-- A member for a list, which is left out when it is empty. -/
def listMember (key : String) (items : List Json) : List (String × Json) :=
  if items.isEmpty then [] else [(key, .array items)]

/-- A single document stands for itself, and any other number of them is an array. -/
def oneOrAll : List Json → Json
  | [item] => item
  | items => .array items

/-- A member for a list in which a single item stands for itself. -/
def itemsMember (key : String) (items : List Json) : List (String × Json) :=
  if items.isEmpty then [] else [(key, oneOrAll items)]

/-- A member for a flag, which is left out when it is not set. -/
def flagMember (key : String) (flag : Bool) : List (String × Json) :=
  if flag then [(key, .bool true)] else []

/-- A member for a count that may be absent. -/
def countMember (key : String) (count : Option UInt64) : List (String × Json) :=
  optionalMember key (count.map fun n => .integer n.toNat)

/-- The last item of a function's document: the literal that is expected, or an object of the tests
that the result has to pass, given as members. -/
def lastItem (tests : List Test) (members : List (String × Json)) : Json :=
  match tests with
  | [⟨.eq, .value v⟩] => v.toJson
  | _ => .object (Json.distinctMembers members)

mutual

/-- The document of a field. -/
def Field.toJson : Field → Json
  | .name name => .single "$name" (.string name)
  | .qualified entity name => .single "$name" (.string (entity ++ "." ++ name))
  | .labelled label expression => .single label (.string expression)
  | .aggregate label func name => .single label (.single func.key (.string name))
  | .function label func args =>
    .single label (.single ("$" ++ func) (.array (Operand.toJsonAll args)))
  | .constant value none => .single "$value" value.toJson
  | .constant value (some label) => .single label (.single "$value" value.toJson)

/-- The documents of fields. -/
def Field.toJsonAll : List Field → List Json
  | [] => []
  | field :: rest => field.toJson :: Field.toJsonAll rest

/-- The document of an operand. -/
def Operand.toJson : Operand → Json
  | .value v => v.toJson
  | .field f => f.toJson
  | .list items => .array (Operand.toJsonAll items)
  | .query q => q.toJson

/-- The documents of operands. -/
def Operand.toJsonAll : List Operand → List Json
  | [] => []
  | operand :: rest => operand.toJson :: Operand.toJsonAll rest

/-- The member for a test. -/
def Test.toMember : Test → String × Json
  | ⟨op, operand⟩ => (op.key, operand.toJson)

/-- The members for tests, of which those with one operator fall together. -/
def Test.toMembers : List Test → List (String × Json)
  | [] => []
  | test :: rest => test.toMember :: Test.toMembers rest

/-- The document of a filter. -/
def Filter.toJson : Filter → Json
  | .logical connective operands => .single connective.key (.array (Filter.toJsonAll operands))
  | .compare field test => .single field (.object [test.toMember])
  | .function field func args tests =>
    .single field (.single ("$" ++ func) (.array
      (Operand.toJsonAll args ++ [lastItem tests (Test.toMembers tests)])))

/-- The documents of filters. -/
def Filter.toJsonAll : List Filter → List Json
  | [] => []
  | filter :: rest => filter.toJson :: Filter.toJsonAll rest

/-- The document of an entity. -/
def Entity.toJson : Entity → Json
  | ⟨name, fields, label⟩ =>
    let members := [(name, Json.array (Field.toJsonAll fields))]
    .object (match label with
      | none => members
      | some label => Json.insertMember "$as" (.string label) members)

/-- The members for column values. -/
def Assignment.toMembers : List Assignment → List (String × Json)
  | [] => []
  | ⟨column, operand⟩ :: rest => (column, operand.toJson) :: Assignment.toMembers rest

/-- The document of a statement, which stands under the statement's key. -/
def Statement.toJson : Statement → Json
  | .select entity fields => .single entity (.array (Field.toJsonAll fields))
  | .insert entity values => .single entity (.object (Assignment.toMembers values))
  | .update entity values => .single entity (.object (Assignment.toMembers values))
  | .delete entity => .string entity

/-- The document of a join target. -/
def JoinTarget.toJson : JoinTarget → Json
  | .entity e => e.toJson
  | .query q => q.toJson

/-- The document of a join condition. -/
def JoinCondition.toJson : JoinCondition → Json
  | .columns sides => .array (sides.map JoinSide.toJson)
  | .filter f => f.toJson

/-- The document of a join. -/
def Join.toJson : Join → Json
  | ⟨target, condition, label⟩ =>
    .object ([("$entity", target.toJson), ("$with", condition.toJson)] ++
      optionalMember "$as" (label.map .string))

/-- The documents of joins. -/
def Join.toJsonAll : List Join → List Json
  | [] => []
  | join :: rest => join.toJson :: Join.toJsonAll rest

/-- The document of an ordering; a single field stands for itself. -/
def Order.toJson : Order → Json
  | ⟨direction, fields⟩ => .single direction.key (oneOrAll (Field.toJsonAll fields))

/-- The documents of orderings. -/
def Order.toJsonAll : List Order → List Json
  | [] => []
  | order :: rest => order.toJson :: Order.toJsonAll rest

/-- The member for a statement. -/
def Statement.toMembers : Option Statement → List (String × Json)
  | none => []
  | some statement => [(statement.key, statement.toJson)]

/-- The member for a filter. -/
def Filter.toMembers (key : String) : Option Filter → List (String × Json)
  | none => []
  | some filter => [(key, filter.toJson)]

/-- The document of a query. -/
def Query.toJson : Query → Json
  | ⟨statement, joins, filter, prepared, orders, groups, distinct, fixed, skip, take, label, _⟩ =>
    .object (Statement.toMembers statement ++ itemsMember "$expand" (Join.toJsonAll joins) ++
      Filter.toMembers "$where" filter ++ Filter.toMembers "$prepared" prepared ++
      listMember "$order" (Order.toJsonAll orders) ++ listMember "$group" (Field.toJsonAll groups) ++
      flagMember "$distinct" distinct ++ flagMember "$fixed" fixed ++
      countMember "$skip" skip ++ countMember "$take" take ++
      optionalMember "$alias" (label.map .string))

end

/-- The digest of the document's text. Queries with one document have one fingerprint. -/
def Query.fingerprint (q : Query) : String :=
  Sha256.hex q.toJson.compact

theorem Field.toJsonAll_eq_map (fields : List Field) :
    Field.toJsonAll fields = fields.map Field.toJson := by
  induction fields with
  | nil => rfl
  | cons field rest ih => rw [Field.toJsonAll, ih, List.map_cons]

theorem Operand.toJsonAll_eq_map (operands : List Operand) :
    Operand.toJsonAll operands = operands.map Operand.toJson := by
  induction operands with
  | nil => rfl
  | cons operand rest ih => rw [Operand.toJsonAll, ih, List.map_cons]

theorem Filter.toJsonAll_eq_map (filters : List Filter) :
    Filter.toJsonAll filters = filters.map Filter.toJson := by
  induction filters with
  | nil => rfl
  | cons filter rest ih => rw [Filter.toJsonAll, ih, List.map_cons]

end QueryCompiler
