import QueryCompiler.Json.Writer
import QueryCompiler.Query.Inspection

/-!
# What can be wrong with a query

The causes for which a document is refused or a step of building a query fails, and the message
for each.
-/

namespace QueryCompiler

/-- The three sorts of fault, of which a message says one first. -/
inductive FaultKind
  | invalidArgument
  | invalidOperation
  | unknownOperator
deriving DecidableEq

/-- The words with which a message begins. -/
def FaultKind.label : FaultKind → String
  | invalidArgument => "Invalid argument"
  | invalidOperation => "Invalid operation"
  | unknownOperator => "Unknown operator"

/-- A cause for refusing a document or a step. -/
inductive QueryError
  /-- An object of one member has none or several. -/
  | notOneKey (what : String) (count : Nat)
  | notString (what : String) (found : Json)
  | notArray (what : String) (found : Json)
  | notObject (what : String) (found : Json)
  | notLiteral (found : Json)
  | notDateTime (text : String)
  | notOperand (found : Json)
  | notField (found : Json)
  | notDefinition (label : String) (found : Json)
  | notOneTable
  /-- A connective's operands are no array. -/
  | notCombination
  | joinWithoutEntity
  | joinWithoutCondition
  | noDirection
  | twoStatements (first second : String)
  | unexpectedKey (key : String)
  | notCount (key : String)
  | notFlag (key : String)
  /-- The values of an insert or update statement are no object. -/
  | valuesNotObject (statement : String) (found : Json)
  /-- Values were given, but there is no update statement to take them. -/
  | noUpdate
  /-- A join was begun, but there is no select statement to join to. -/
  | noSelect
  /-- A join condition was given, but no join was begun. -/
  | noJoin
  | notQualifiable (field : Field) (entity : String)
  | unknownOperator (key : String)

namespace QueryError

/-- The sort of a cause. -/
def kind : QueryError → FaultKind
  | noUpdate | noSelect | noJoin | notQualifiable .. => .invalidOperation
  | unknownOperator _ => .unknownOperator
  | _ => .invalidArgument

/-- What a cause has to say for itself. -/
def reason : QueryError → String
  | notOneKey what count => what ++ " must have exactly one key, found " ++ toString count
  | notString what found => what ++ " must be a string, got " ++ found.compact
  | notArray what found => what ++ " must be an array, got " ++ found.compact
  | notObject what found => what ++ " must be an object, got " ++ found.compact
  | notLiteral found => "expected a literal value, got " ++ found.compact
  | notDateTime text => "invalid date-time literal '" ++ text ++ "'"
  | notOperand found => "unrecognized operand " ++ found.compact
  | notField found => "expected a field, got " ++ found.compact
  | notDefinition label found =>
    "invalid definition for field '" ++ label ++ "': " ++ found.compact
  | notOneTable => "entity must name exactly one table"
  | notCombination => "a logical expression must contain one or more comparison expressions"
  | joinWithoutEntity => "join expression requires $entity"
  | joinWithoutCondition => "join expression requires $with"
  | noDirection => "an order by object must have either ascending or descending property"
  | twoStatements first second => "query expression has both " ++ first ++ " and " ++ second
  | unexpectedKey key => "unexpected key '" ++ key ++ "' in query expression"
  | notCount key => key ++ " must be a non-negative integer"
  | notFlag key => key ++ " must be a boolean"
  | valuesNotObject statement found =>
    statement ++ " expression argument must be an object, got " ++ found.compact
  | noUpdate => "update entity cannot be empty at this context"
  | noSelect => "query entity cannot be empty when adding a join entity"
  | noJoin => "join entity cannot be empty when adding a join expression"
  | notQualifiable field entity =>
    "field " ++ field.inspect ++ " has no name that can be qualified with '" ++ entity ++ "'"
  | unknownOperator key => key

/-- The whole message. -/
def message (e : QueryError) : String :=
  e.kind.label ++ ": " ++ e.reason

end QueryError

end QueryCompiler
