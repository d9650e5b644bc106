import QueryCompiler.Calendar.Reading
import QueryCompiler.Decimal.Number
import QueryCompiler.Json.Basic
import QueryCompiler.Query.Error
import QueryCompiler.Query.Field
import QueryCompiler.Query.Filter

/-!
# Reading documents

What a JSON document says is decided by its keys. Reading refuses reserved keys that it does not
know and documents with more than one statement; it fills in what a document may leave out, such
as the comparison in `{"name": 1}`. A part is read at its first fault, in document order.
-/

namespace QueryCompiler

open Json (hasKey)

/-- The key is reserved. -/
def isReserved (key : String) : Bool :=
  key.toList.head? = some '$'

/-- The name behind the mark of a reserved key. -/
def functionName? (key : String) : Option String :=
  match key.toList with
  | '$' :: c :: cs => some (String.ofList (c :: cs))
  | _ => none

/-- The keys of statements. -/
def statementKeys : List String := ["$select", "$insert", "$update", "$delete"]

namespace Json

/-- A string, where one is expected. -/
def text (what : String) : Json → Except QueryError String
  | .string s => .ok s
  | other => .error (.notString what other)

/-- A count, or nothing. -/
def count? (key : String) : Json → Except QueryError (Option UInt64)
  | .null => .ok none
  | .integer n =>
    if 0 ≤ n ∧ n < UInt64.size then .ok (some (UInt64.ofNat n.toNat)) else .error (.notCount key)
  | _ => .error (.notCount key)

/-- A flag, which is not set where it is null. -/
def flag (key : String) : Json → Except QueryError Bool
  | .null => .ok false
  | .bool b => .ok b
  | _ => .error (.notFlag key)

/-- The members define a field: an alias with an expression, or with one reserved key. -/
def definesField : List (String × Json) → Bool
  | [(label, .string _)] => !isReserved label
  | [(label, .object [(key, _)])] => !isReserved label && isReserved key
  | _ => false

/-- Every key is that of a comparison. -/
def namesTests (members : List (String × Json)) : Bool :=
  members.all fun member => (ComparisonOp.ofKey? member.1).isSome

/-- The only member has the key of an operand that is no function. -/
def namesOperand : List (String × Json) → Bool
  | [(key, _)] => ["$name", "$date", "$value"].contains key || statementKeys.contains key
  | _ => false

end Json

/-- The literal that a document writes. -/
def Value.ofJson : Json → Except QueryError Value
  | .null => .ok .null
  | .bool b => .ok (.bool b)
  | .integer n => .ok (match int64? n with
    | some word => .integer word
    | none => .float (floatOfInt n))
  | .float x => .ok (.float x)
  | .string s => .ok (.string s)
  | .object [("$date", date)] => do
    let text ← date.text "$date"
    match DateTime.ofText? text with
    | some t => return .dateTime t
    | none => .error (.notDateTime text)
  | other => .error (.notLiteral other)

/-- The side of an equi-join that a document writes. -/
def JoinSide.ofJson : Json → Except QueryError JoinSide
  | .object [(entity, columns)] => do
    return ⟨entity, ← columns.oneOrMany.mapM (Json.text "join field")⟩
  | .object members => .error (.notOneKey "join side" members.length)
  | other => .error (.notObject "join side" other)

/-- Several filters on one field stand for all of them. -/
def Filter.ofTests (field : String) : List Test → Filter
  | [test] => .compare field test
  | tests => .conjunction (tests.map (.compare field))

/-- Decides what an object means as an operand. How it is read as a field or as a query is left to
the caller. -/
def Operand.ofObject (members : List (String × Json)) (field : Unit → Except QueryError Field)
    (query : Unit → Except QueryError Query) : Except QueryError Operand :=
  if hasKey "$date" members then return .value (← Value.ofJson (.object members))
  else if hasKey "$name" members || hasKey "$value" members then return .field (← field ())
  else if statementKeys.any fun key => hasKey key members then return .query (← query ())
  else if Json.definesField members then return .field (← field ())
  else .error (.notOperand (.object members))

/-- Gives a query its statement, unless it has one already. -/
def Query.putStatement (q : Query) (key : String) (read : Unit → Except QueryError Statement) :
    Except QueryError Query :=
  match q.statement with
  | some statement => .error (.twoStatements statement.key key)
  | none => do return { q with statement := some (← read ()) }

/-- What the members of a join's document say, each read on its own. -/
structure JoinParts where
  target : Option (Except QueryError JoinTarget) := none
  condition : Option (Except QueryError JoinCondition) := none
  label : Option (Except QueryError String) := none

/-- The join that its parts make up. -/
def JoinParts.join (parts : JoinParts) : Except QueryError Join := do
  let target ← parts.target.getD (.error .joinWithoutEntity)
  let condition ← match parts.condition with
    | none => .error .joinWithoutCondition
    | some condition => pure condition
  let label ← match parts.label with
    | none => pure none
    | some label => some <$> label
  return ⟨target, ← condition, label⟩

/-- The first key that a join's document must not have. -/
def unknownJoinKey? (members : List (String × Json)) : Option String :=
  (members.find? fun member => member.1 ∉ ["$entity", "$with", "$as"]).map Prod.fst

/-- The members of an entity's document that were read so far. -/
structure EntityParts where
  table : Option (String × List Field) := none
  label : Option String := none

/-- The entity that its parts make up. -/
def EntityParts.entity (parts : EntityParts) : Except QueryError Entity :=
  match parts.table with
  | some (name, fields) => .ok ⟨name, fields, parts.label⟩
  | none => .error .notOneTable

mutual

/-- The operand that a document writes. -/
def Operand.ofJson : Json → Except QueryError Operand
  | .array items => return .list (← Operand.ofJsonAll items)
  | .object members =>
    Operand.ofObject members (fun _ => Field.ofMembers members) (fun _ => Query.ofMembers ∅ members)
  | scalar => return .value (← Value.ofJson scalar)

/-- The operands that documents write. -/
def Operand.ofJsonAll : List Json → Except QueryError (List Operand)
  | [] => .ok []
  | item :: rest => do
    let operand ← Operand.ofJson item
    return operand :: (← Operand.ofJsonAll rest)

/-- The field that a document writes; a string is a name. -/
def Field.ofJson : Json → Except QueryError Field
  | .string name => .ok (.select name)
  | .object members => Field.ofMembers members
  | other => .error (.notField other)

/-- The fields that documents write. -/
def Field.ofJsonAll : List Json → Except QueryError (List Field)
  | [] => .ok []
  | item :: rest => do
    let field ← Field.ofJson item
    return field :: (← Field.ofJsonAll rest)

/-- The field that the members of an object write. -/
def Field.ofMembers : List (String × Json) → Except QueryError Field
  | [(key, value)] =>
    if key = "$name" then return .select (← value.text "$name")
    else if key = "$value" then return .constant (← Value.ofJson value) none
    else if isReserved key then .error (.unknownOperator key)
    else match value with
      | .string expression => return .labelled key expression
      | .object [(func, argument)] =>
        if func = "$value" then return .constant (← Value.ofJson argument) (some key)
        else match Aggregate.ofKey? func with
          | some aggregate => return .aggregate key aggregate (← argument.text func)
          | none => match functionName? func with
            | none => .error (.unknownOperator func)
            | some name => match argument with
              | .array items => return .function key name (← Operand.ofJsonAll items)
              | other => return .function key name [← Operand.ofJson other]
      | .object members => .error (.notOneKey "field expression" members.length)
      | other => .error (.notDefinition key other)
  | members => .error (.notOneKey "field" members.length)

/-- The tests that members with comparisons as keys write. -/
def Test.ofMembers : List (String × Json) → Except QueryError (List Test)
  | [] => .ok []
  | (key, value) :: rest =>
    match ComparisonOp.ofKey? key with
    | none => Test.ofMembers rest
    | some op => do
      let operand ← Operand.ofJson value
      return ⟨op, operand⟩ :: (← Test.ofMembers rest)

/-- The tests that the last item of a function's document writes: an object of comparisons, or
the expected result. -/
def Test.ofLast : Json → Except QueryError (List Test)
  | .object members =>
    if Json.namesTests members then Test.ofMembers members
    else return [⟨.eq, ← Operand.ofObject members (fun _ => Field.ofMembers members)
      (fun _ => Query.ofMembers ∅ members)⟩]
  | .array items => return [⟨.eq, .list (← Operand.ofJsonAll items)⟩]
  | scalar => return [⟨.eq, .value (← Value.ofJson scalar)⟩]

/-- The arguments and tests that the items of a function's document write. -/
def Filter.ofCall : List Json → Except QueryError (List Operand × List Test)
  | [] => .ok ([], [])
  | [last] => return ([], ← Test.ofLast last)
  | item :: rest => do
    let argument ← Operand.ofJson item
    let (arguments, tests) ← Filter.ofCall rest
    return (argument :: arguments, tests)

/-- The filter on one field that a document writes. -/
def Filter.ofField (field : String) : Json → Except QueryError Filter
  | .object [] => return .equals field .null
  | .object members =>
    if Json.namesTests members then return .ofTests field (← Test.ofMembers members)
    else if Json.namesOperand members then
      return .equals field (← Operand.ofObject members (fun _ => Field.ofMembers members)
        (fun _ => Query.ofMembers ∅ members))
    else match members with
      | [(key, argument)] =>
        match functionName? key with
        | none => .error (.unknownOperator key)
        | some name => match argument with
          | .array items => do
            let (arguments, tests) ← Filter.ofCall items
            return .function field name arguments tests
          | other => return .function field name [] (← Test.ofLast other)
      | members => .error (.notOneKey "comparison" members.length)
  | .array items => return .equals field (.list (← Operand.ofJsonAll items))
  | scalar => return .equals field (.value (← Value.ofJson scalar))

/-- The filter that the members of an object write. -/
def Filter.ofMembers : List (String × Json) → Except QueryError Filter
  | [(key, value)] =>
    match Connective.ofKey? key with
    | some connective => match value with
      | .array items => return .logical connective (← Filter.ofJsonAll items)
      | _ => .error .notCombination
    | none => if isReserved key then .error (.unknownOperator key) else Filter.ofField key value
  | members => .error (.notOneKey "filter" members.length)

/-- The filter that a document writes. -/
def Filter.ofJson : Json → Except QueryError Filter
  | .object members => Filter.ofMembers members
  | other => .error (.notObject "filter" other)

/-- The filters that documents write. -/
def Filter.ofJsonAll : List Json → Except QueryError (List Filter)
  | [] => .ok []
  | item :: rest => do
    let filter ← Filter.ofJson item
    return filter :: (← Filter.ofJsonAll rest)

/-- The entity that the members of an object write, after those that were read already. -/
def Entity.ofMembers (parts : EntityParts) : List (String × Json) → Except QueryError Entity
  | [] => parts.entity
  | (key, value) :: rest => do
    if key = "$as" then
      let label ← value.text "$as"
      Entity.ofMembers { parts with label := some label } rest
    else if isReserved key then .error (.unknownOperator key)
    else if parts.table.isSome then .error .notOneTable
    else
      let fields ← match value with
        | .null => pure []
        | .array items => Field.ofJsonAll items
        | other => do pure [← Field.ofJson other]
      Entity.ofMembers { parts with table := some (key, fields) } rest

/-- The entity that a document writes; a string is a table's name. -/
def Entity.ofJson : Json → Except QueryError Entity
  | .string name => .ok { name }
  | .object members => Entity.ofMembers {} members
  | other => .error (.notObject "entity" other)

/-- The column values that the members of an object write. -/
def Assignment.ofMembers : List (String × Json) → Except QueryError (List Assignment)
  | [] => .ok []
  | (column, value) :: rest => do
    let operand ← Operand.ofJson value
    return ⟨column, operand⟩ :: (← Assignment.ofMembers rest)

/-- The table and its column values that a document writes. -/
def Assignment.ofJson (what : String) : Json → Except QueryError (String × List Assignment)
  | .object [(entity, .object values)] => return (entity, ← Assignment.ofMembers values)
  | .object [(_, other)] => .error (.notObject what other)
  | .object members => .error (.notOneKey what members.length)
  | other => .error (.notObject what other)

/-- The join target that a document writes: a query if it selects, or else an entity. -/
def JoinTarget.ofJson : Json → Except QueryError JoinTarget
  | .string name => .ok (.entity { name })
  | .object members =>
    if hasKey "$select" members then return .query (← Query.ofMembers ∅ members)
    else return .entity (← Entity.ofMembers {} members)
  | other => .error (.notObject "entity" other)

/-- The join condition that a document writes. -/
def JoinCondition.ofJson : Json → Except QueryError JoinCondition
  | .array sides => return .columns (← sides.mapM JoinSide.ofJson)
  | .object members => return .filter (← Filter.ofMembers members)
  | other => .error (.notObject "filter" other)

/-- What the members of a join's document say. -/
def JoinParts.ofMembers : List (String × Json) → JoinParts
  | [] => {}
  | (key, value) :: rest =>
    let parts := JoinParts.ofMembers rest
    if key = "$entity" then { parts with target := some (JoinTarget.ofJson value) }
    else if key = "$with" then { parts with condition := some (JoinCondition.ofJson value) }
    else if key = "$as" then { parts with label := some (value.text "$as") }
    else parts

/-- The join that a document writes. -/
def Join.ofJson : Json → Except QueryError Join
  | .object members =>
    match unknownJoinKey? members with
    | some key => .error (.unknownOperator key)
    | none => (JoinParts.ofMembers members).join
  | other => .error (.notObject "join" other)

/-- The joins that documents write. -/
def Join.ofJsonAll : List Json → Except QueryError (List Join)
  | [] => .ok []
  | item :: rest => do
    let join ← Join.ofJson item
    return join :: (← Join.ofJsonAll rest)

/-- The ordering that a document writes. -/
def Order.ofJson : Json → Except QueryError Order
  | .object [(key, value)] =>
    match Direction.ofKey? key with
    | none => .error .noDirection
    | some direction => match value with
      | .array items => return ⟨direction, ← Field.ofJsonAll items⟩
      | other => return ⟨direction, [← Field.ofJson other]⟩
  | .object members => .error (.notOneKey "order" members.length)
  | other => .error (.notObject "order" other)

/-- The orderings that documents write. -/
def Order.ofJsonAll : List Json → Except QueryError (List Order)
  | [] => .ok []
  | item :: rest => do
    let order ← Order.ofJson item
    return order :: (← Order.ofJsonAll rest)

/-- The query that the members of an object write, added to what was read already. -/
def Query.ofMembers (q : Query) : List (String × Json) → Except QueryError Query
  | [] => .ok q
  | (key, value) :: rest => do
    let q ← (
      if key = "$select" then
        q.putStatement key fun _ =>
          (fun entity => .select entity.name entity.fields) <$> Entity.ofJson value
      else if key = "$insert" then
        q.putStatement key fun _ =>
          (fun table => .insert table.1 table.2) <$> Assignment.ofJson key value
      else if key = "$update" then
        q.putStatement key fun _ =>
          (fun table => .update table.1 table.2) <$> Assignment.ofJson key value
      else if key = "$delete" then q.putStatement key fun _ => .delete <$> value.text key
      else if key = "$expand" then
        match value with
        | .array items => (fun joins => { q with joins }) <$> Join.ofJsonAll items
        | other => (fun join => { q with joins := [join] }) <$> Join.ofJson other
      else if key = "$where" then
        match value with
        | .null => .ok q
        | other => (fun filter => { q with filter := some filter }) <$> Filter.ofJson other
      else if key = "$prepared" then
        match value with
        | .null => .ok q
        | other => (fun filter => { q with prepared := some filter }) <$> Filter.ofJson other
      else if key = "$order" then
        match value with
        | .array items => (fun orders => { q with orders }) <$> Order.ofJsonAll items
        | other => .error (.notArray key other)
      else if key = "$group" then
        match value with
        | .array items => (fun groups => { q with groups }) <$> Field.ofJsonAll items
        | other => (fun field => { q with groups := [field] }) <$> Field.ofJson other
      else if key = "$distinct" then (fun distinct => { q with distinct }) <$> value.flag key
      else if key = "$fixed" then (fun fixed => { q with fixed }) <$> value.flag key
      else if key = "$skip" then (fun skip => { q with skip }) <$> value.count? key
      else if key = "$take" then (fun take => { q with take }) <$> value.count? key
      else if key = "$alias" then (fun label => { q with label := some label }) <$> value.text key
      else if isReserved key then .error (.unknownOperator key)
      else .error (.unexpectedKey key))
    Query.ofMembers q rest

end

/-- The query that a document writes. -/
def Query.ofJson : Json → Except QueryError Query
  | .object members => Query.ofMembers ∅ members
  | other => .error (.notObject "query expression" other)

end QueryCompiler

