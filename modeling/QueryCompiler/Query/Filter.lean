import QueryCompiler.Query.Basic

/-!
# Filters and what a query says of itself

Combining filters, the filter that a statement or a join uses, and simple questions to a query.
-/

namespace QueryCompiler

namespace Filter

/-- All of the filters. -/
def conjunction (operands : List Filter) : Filter :=
  .logical .and operands

/-- One of the filters. -/
def disjunction (operands : List Filter) : Filter :=
  .logical .or operands

/-- A field equals an operand. -/
def equals (field : String) (operand : Operand) : Filter :=
  .compare field ⟨.eq, operand⟩

/-- Combines two filters. A first filter that has the connective at its root takes in the
second, so that a run of one connective stays flat. -/
def combine (connective : Connective) (first second : Filter) : Filter :=
  match first with
  | .logical root operands =>
    if root = connective then .logical root (operands ++ [second])
    else .logical connective [first, second]
  | _ => .logical connective [first, second]

end Filter

namespace Statement

/-- The table that the statement works on. -/
def entity : Statement → String
  | .select entity _ | .insert entity _ | .update entity _ | .delete entity => entity

/-- The statement's verb. -/
def verb : Statement → String
  | .select .. => "select"
  | .insert .. => "insert"
  | .update .. => "update"
  | .delete .. => "delete"

/-- The reserved key. -/
def key : Statement → String
  | .select .. => "$select"
  | .insert .. => "$insert"
  | .update .. => "$update"
  | .delete .. => "$delete"

end Statement

namespace JoinTarget

/-- The name that the target brings with it. -/
def label? : JoinTarget → Option String
  | .entity e => e.label
  | .query q => q.label

/-- The fields that the target contributes to a selection. -/
def fields : JoinTarget → List Field
  | .entity e => e.fields
  | .query _ => []

end JoinTarget

namespace Join

/-- The name of what is joined: the join's own, or the one that its target brings with it. -/
def effectiveLabel? (join : Join) : Option String :=
  join.label <|> join.target.label?

end Join

namespace Query

/-- Both filters under one connective, or the one that there is. -/
def both? (first second : Option Filter) : Option Filter :=
  match first, second with
  | some f, some g => some (.conjunction [f, g])
  | some f, none => some f
  | none, g => g

/-- The condition of a statement: the filter and then that of earlier phases. -/
def whereFilter? (q : Query) : Option Filter :=
  both? q.filter q.prepared

/-- The condition under which the query is joined: the filter of earlier phases comes first. -/
def joinFilter? (q : Query) : Option Filter :=
  both? q.prepared q.filter

/-- The condition that a query stands for where one is asked for. -/
def asCondition (q : Query) : JoinCondition :=
  .filter (q.joinFilter?.getD (.conjunction []))

/-- The selected fields of a select statement. -/
def selectedFields? (q : Query) : Option (List Field) :=
  match q.statement with
  | some (.select _ fields) => some fields
  | _ => none

/-- The query selects. -/
def isSelect (q : Query) : Bool :=
  q.selectedFields?.isSome

/-- There is a filter. -/
def hasFilter (q : Query) : Bool :=
  q.filter.isSome

/-- Only so many rows are taken. -/
def hasPaging (q : Query) : Bool :=
  q.take.isSome

/-- The selection or a joined table names fields. -/
def hasFields (q : Query) : Bool :=
  !(q.selectedFields?.getD []).isEmpty || q.joins.any fun join => !join.target.fields.isEmpty

/-- There is nothing to say: no statement and no filter. -/
def isEmpty (q : Query) : Bool :=
  q.statement.isNone && q.filter.isNone && q.prepared.isNone

end Query

end QueryCompiler
