import QueryCompiler.Document.Reading
import QueryCompiler.Query.Field

/-!
# Building queries

A query is built in steps. Some steps only stage something: a field that waits for its comparison,
selected fields that wait for their table, the target of a join that waits for its condition. A
step that fails gives a cause and no query, so that it cannot have changed anything.
-/

namespace QueryCompiler

/-- What is said of the staged field. -/
inductive Predicate
  | compare (op : ComparisonOp) (operand : Operand)
  /-- A function of the field and an argument equals a result. -/
  | call (function : String) (argument result : Operand)

namespace Predicate

/-- The filter that a predicate makes of a field. -/
def filter (field : String) : Predicate → Filter
  | compare op operand => .compare field ⟨op, operand⟩
  | call function argument result => .function field function [argument] [⟨.eq, result⟩]

/-- The field's text begins with a text. -/
def startsWith (text : Operand) : Predicate := .call "startswith" text (.value (.bool true))

/-- The field's text ends with a text. -/
def endsWith (text : Operand) : Predicate := .call "endswith" text (.value (.bool true))

/-- The field's text contains a text. -/
def contains (text : Operand) : Predicate := .call "contains" text (.value (.bool true))

/-- The field's remainder on division. -/
def remainder (divisor result : Operand) : Predicate := .call "mod" divisor result

/-- The field's bits under a mask. Without a result all of the mask's bits are set. -/
def bits (mask : Operand) (result : Option Operand) : Predicate :=
  .call "bit" mask (result.getD mask)

end Predicate

namespace Query

/-- A step in building a query. -/
inductive Step
  | select (fields : List Field)
  | selectFrom (entity : String)
  /-- Inserts the members of a document. -/
  | insert (entity : String) (values : Json)
  | update (entity : String)
  /-- Gives an update its values, which are the members of a document. -/
  | set (values : Json)
  | delete (entity : String)
  /-- Starts the filter again and stages a field. -/
  | whereField (field : Field)
  /-- Stages a field and how its filter is combined with those before. -/
  | combineField (connective : Connective) (field : Field)
  | predicate (predicate : Predicate)
  /-- Ends a phase: the filter joins those of earlier phases. -/
  | prepare (connective : Connective)
  /-- Stages the target of a join. -/
  | join (target : JoinTarget)
  /-- Gives the staged target its condition. -/
  | on (condition : JoinCondition)
  | orderBy (direction : Direction) (field : Field)
  /-- Adds to an ordering that has been begun. -/
  | thenBy (direction : Direction) (field : Field)
  | groupBy (fields : List Field)
  | skip (n : UInt64)
  | take (n : UInt64)
  | distinct (flag : Bool)
  | fixed (flag : Bool)
  | label (name : String)

/-- The assignments that a document of values writes. -/
def assignments (statement : String) : Json → Except QueryError (List Assignment)
  | .object members => members.mapM fun (column, value) => do
    return ⟨column, ← Operand.ofJson value⟩
  | other => .error (.valuesNotObject statement other)

/-- Selects fields, now or as soon as there is a table to select from. -/
def select (q : Query) (fields : List Field) : Query :=
  match q.statement with
  | some (.select entity _) => { q with statement := some (.select entity fields) }
  | _ => { q with statement := none, staged.fields := some fields }

/-- Selects from a table. -/
def selectFrom (q : Query) (entity : String) : Query :=
  match q.statement with
  | some (.select _ fields) => { q with statement := some (.select entity fields) }
  | _ => { q with
      statement := some (.select entity (q.staged.fields.getD []))
      staged.fields := none }

/-- Gives an update its values. -/
def setValues (q : Query) (values : List Assignment) : Except QueryError Query :=
  match q.statement with
  | some (.update entity _) => .ok { q with statement := some (.update entity values) }
  | _ => .error .noUpdate

/-- Stages a field. One that a filter cannot name leaves nothing staged. -/
def stage (q : Query) (connective : Option Connective) (field : Field) : Query :=
  { q with staged.field := field.filterText?, staged.connective := connective }

/-- A leaf combined with the filter, if there is one. -/
def addFilter (q : Query) (connective : Connective) (leaf : Filter) : Query :=
  { q with filter := some (match q.filter with
      | some filter => filter.combine connective leaf
      | none => leaf) }

/-- Completes the staged field to a leaf of the filter. Without a staged field nothing is said. -/
def addPredicate (q : Query) (predicate : Predicate) : Query :=
  match q.staged.field with
  | none => q
  | some field =>
    { q with staged.field := none, staged.connective := none }.addFilter
      (q.staged.connective.getD .and) (predicate.filter field)

/-- Moves the filter to those of earlier phases. -/
def prepare (q : Query) (connective : Connective) : Query :=
  match q.filter with
  | none => q
  | some filter =>
    { q with
      filter := none
      prepared := some (match q.prepared with
        | some prepared => .logical connective [prepared, filter]
        | none => filter) }

/-- The query after a step, or why the step fails. -/
def apply (q : Query) : Step → Except QueryError Query
  | .select fields => .ok (q.select fields)
  | .selectFrom entity => .ok (q.selectFrom entity)
  | .insert entity values => do
    return { q with statement := some (.insert entity (← assignments "insert" values)) }
  | .update entity => .ok { q with statement := some (.update entity []) }
  | .set values => do q.setValues (← assignments "update" values)
  | .delete entity => .ok { q with statement := some (.delete entity) }
  | .whereField field => .ok ({ q with filter := none }.stage none field)
  | .combineField connective field => .ok (q.stage (some connective) field)
  | .predicate predicate => .ok (q.addPredicate predicate)
  | .prepare connective => .ok (q.prepare connective)
  | .join target =>
    if q.isSelect then .ok { q with staged.target := some target } else .error .noSelect
  | .on condition => match q.staged.target with
    | some target =>
      .ok { q with staged.target := none, joins := q.joins ++ [⟨target, condition, none⟩] }
    | none => .error .noJoin
  | .orderBy direction field => .ok { q with orders := q.orders ++ [⟨direction, [field]⟩] }
  | .thenBy direction field =>
    .ok (if q.orders.isEmpty then q else { q with orders := q.orders ++ [⟨direction, [field]⟩] })
  | .groupBy fields => .ok { q with groups := q.groups ++ fields }
  | .skip n => .ok { q with skip := some n }
  | .take n => .ok { q with take := some n }
  | .distinct flag => .ok { q with distinct := flag }
  | .fixed flag => .ok { q with fixed := flag }
  | .label name => .ok { q with label := some name }

/-- The query after a step, which is the query before it if the step fails. -/
def applyOrKeep (q : Query) (step : Step) : Query :=
  match q.apply step with
  | .ok next => next
  | .error _ => q

/-- The query after some steps, of which those that fail are left out. -/
def run (q : Query) (steps : List Step) : Query :=
  steps.foldl applyOrKeep q

/-- A select from a table. -/
def ofEntity (entity : String) : Query :=
  (∅ : Query).selectFrom entity

/-- A bare filter that is about to be made of a field. -/
def ofField (field : Field) : Query :=
  (∅ : Query).stage none field

end Query

end QueryCompiler
