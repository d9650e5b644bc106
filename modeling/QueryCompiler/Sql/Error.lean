import QueryCompiler.Function.Renderer
import QueryCompiler.Query.Error

/-!
# Why a query has no SQL

The causes for which a query cannot be rendered, and the message for each.
-/

namespace QueryCompiler

/-- A cause for refusing to render. -/
inductive SqlError
  /-- There is neither a statement nor a filter. -/
  | nothingToSay
  | noFields (entity : String)
  | noValues (statement entity : String)
  | notTwoSides (count : Nat)
  | unequalSides (left right : String)
  /-- A join's condition says nothing. -/
  | noCondition (entity : String)
  /-- What stands behind `IN` is neither a list nor a selection. -/
  | notList
  | noOrderFields
  | function (error : FunctionError)
deriving DecidableEq

namespace SqlError

/-- The sort of a cause. An unknown function is an unknown operator. -/
def kind : SqlError → FaultKind
  | notTwoSides _ | unequalSides .. | noCondition _ => .invalidOperation
  | function (.notFound _) => .unknownOperator
  | _ => .invalidArgument

/-- What a cause has to say for itself. -/
def reason : SqlError → String
  | nothingToSay => "query expression cannot be empty"
  | noFields entity => "select expression over '" ++ entity ++ "' does not contain any fields"
  | noValues statement entity => statement ++ " expression for '" ++ entity ++ "' cannot be empty"
  | notTwoSides count =>
    "invalid join comparison expression: expected 2 sides, got " ++ toString count
  | unequalSides left right =>
    "invalid join comparison expression between " ++ left ++ " and " ++ right
  | noCondition entity => "join condition for " ++ entity ++ " cannot be empty"
  | notList => "an in statement must contain one or more values or a select sub-query"
  | noOrderFields => "an order by object must name at least one field"
  | function (.notFound name) => name
  | function e => e.message

/-- The whole message. -/
def message (e : SqlError) : String :=
  e.kind.label ++ ": " ++ e.reason

end SqlError

end QueryCompiler
