import QueryCompiler.Value
import QueryCompiler.Query.Operator

/-!
# Queries

A query holds one statement or none, a filter, joins, orderings and the rest of what a statement
can say. Fields, operands and queries contain one another: a field may be a function of operands,
an operand may be a field or a whole query.
-/

namespace QueryCompiler

/-- One table's columns in an equi-join. -/
structure JoinSide where
  entity : String
  columns : List String
deriving DecidableEq

mutual

/-- A column, a computed column or a constant. -/
inductive Field
  | name (name : String)
  | qualified (entity name : String)
  /-- An expression that is passed through as it stands, under an alias. -/
  | labelled (label expression : String)
  | aggregate (label : String) (aggregate : Aggregate) (name : String)
  | function (label function : String) (arguments : List Operand)
  | constant (value : Value) (label : Option String)

/-- What is compared with, stored, or passed to a function. -/
inductive Operand
  | value (value : Value)
  | field (field : Field)
  | list (items : List Operand)
  | query (query : Query)

/-- A comparison with an operand. -/
structure Test where
  op : ComparisonOp
  operand : Operand

/-- A condition on rows. -/
inductive Filter
  | logical (connective : Connective) (operands : List Filter)
  | compare (field : String) (test : Test)
  /-- A function of the field and the arguments, whose result has to pass every test. -/
  | function (field function : String) (arguments : List Operand) (tests : List Test)

/-- A table that takes part in a query, with the fields that it contributes. -/
structure Entity where
  name : String
  fields : List Field := []
  label : Option String := none

/-- A value for a column. -/
structure Assignment where
  column : String
  operand : Operand

/-- What a query does, and to which table. -/
inductive Statement
  | select (entity : String) (fields : List Field)
  | insert (entity : String) (values : List Assignment)
  | update (entity : String) (values : List Assignment)
  | delete (entity : String)

/-- What is joined. -/
inductive JoinTarget
  | entity (entity : Entity)
  | query (query : Query)

/-- Which rows a join brings together. -/
inductive JoinCondition
  /-- The columns of the two sides are equal one by one. -/
  | columns (sides : List JoinSide)
  | filter (filter : Filter)

/-- A joined table or query. -/
structure Join where
  target : JoinTarget
  condition : JoinCondition
  label : Option String := none

/-- Fields to order by, all in one direction. -/
structure Order where
  direction : Direction
  fields : List Field

/-- What has been said while building a query and waits for its other half. -/
structure Staged where
  /-- The field that the next comparison is about. -/
  field : Option String := none
  /-- How that comparison is combined with the filter. -/
  connective : Option Connective := none
  /-- Selected fields that wait for their table. -/
  fields : Option (List Field) := none
  /-- The target of a join that waits for its condition. -/
  target : Option JoinTarget := none

/-- A query. -/
structure Query where
  statement : Option Statement := none
  joins : List Join := []
  filter : Option Filter := none
  /-- The filter of earlier phases. -/
  prepared : Option Filter := none
  orders : List Order := []
  groups : List Field := []
  distinct : Bool := false
  /-- The selection stands inside another one that takes all its columns. -/
  fixed : Bool := false
  skip : Option UInt64 := none
  take : Option UInt64 := none
  /-- The name under which the query is joined. -/
  label : Option String := none
  staged : Staged

end

/-- The query that says nothing. -/
def Query.empty : Query := { staged := {} }

instance : EmptyCollection Query := ⟨Query.empty⟩

instance : Inhabited Query := ⟨Query.empty⟩

end QueryCompiler
