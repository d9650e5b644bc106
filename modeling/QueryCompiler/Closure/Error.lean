import QueryCompiler.Closure.Expression
import QueryCompiler.Closure.Node
import QueryCompiler.Query.Error

/-!
# What can be wrong with a closure

The causes for which a closure is no query, and the message for each.
-/

namespace QueryCompiler

/-- The sorts of fault, of which a message says one first. -/
inductive ClosureFault
  /-- The text is no closure. -/
  | grammar
  | token
  | unsupported
  | missingOperand
  | invalidOperator
  | resolve
  /-- The message is the expression's own. -/
  | expression
deriving DecidableEq

/-- The words with which a message begins. -/
def ClosureFault.label : ClosureFault → String
  | grammar => "Pest error: "
  | token => "Syntax error: "
  | unsupported => "Unsupported expression: "
  | missingOperand => "Missing operand: "
  | invalidOperator => "Invalid operator: "
  | resolve => "Resolve error: "
  | expression => ""

open Closure (NodeKind ExpressionError)

/-- A cause for refusing a closure. -/
inductive ClosureError
  /-- The text is no closure. -/
  | malformed
  | numberTooLarge (raw : String)
  /-- A logical or binary expression lacks an operand. -/
  | missingOperand (sort : String)
  | invalidOperator (sort operator : String)
  /-- The literal is no value of a query. -/
  | notValue (error : QueryError)
  | unaryOperator (operator : String)
  | negatedNonNumber
  | negationOverflow (n : Int64)
  | invalidProperty (kind : NodeKind)
  | memberOf (kind : NodeKind)
  | parameterAsValue
  | emptyPath
  | notParameter (name : String)
  | callOn (kind : NodeKind)
  /-- There is no function for a method. -/
  | untranslated (method : String)
  | argumentCount (method : String) (count : Nat)
  | substringBounds
  | substringRange
  | unknownAttribute (name : String)
  | expression (error : ExpressionError)

namespace ClosureError

/-- The sort of a cause. -/
def fault : ClosureError → ClosureFault
  | malformed => .grammar
  | numberTooLarge _ => .token
  | missingOperand _ => .missingOperand
  | invalidOperator .. => .invalidOperator
  | negationOverflow _ | notParameter _ | argumentCount .. | substringBounds | substringRange
  | unknownAttribute _ => .resolve
  | expression _ => .expression
  | _ => .unsupported

/-- What a cause has to say for itself. What the parser says of a text that is no closure is not
modelled: three dots stand in its place. -/
def reason : ClosureError → String
  | malformed => "..."
  | numberTooLarge raw => "Invalid number '" ++ raw ++ "'"
  | missingOperand sort => sort ++ " expression needs a left and a right operand"
  | invalidOperator sort operator => "invalid " ++ sort ++ " operator '" ++ operator ++ "'"
  | notValue error => error.message
  | unaryOperator operator => "unary '" ++ operator ++ "' is not yet implemented"
  | negatedNonNumber => "negation of a non-numeric literal"
  | negationOverflow n => "cannot negate " ++ toString n.toInt
  | invalidProperty kind => "invalid member expression with a " ++ kind.name ++ " property"
  | memberOf kind => "member access on " ++ kind.name
  | parameterAsValue => "closure parameter used as a value"
  | emptyPath => "empty member path"
  | notParameter name => "'" ++ name ++ "' is not a closure parameter"
  | callOn kind => "call on " ++ kind.name
  | untranslated method => "method '" ++ method ++ "' has no query translation"
  | argumentCount method count =>
    "method '" ++ method ++ "' with " ++ toString count ++ " arguments"
  | substringBounds => "substring bounds must be integer literals"
  | substringRange => "substring bounds out of range"
  | unknownAttribute name => "unknown attribute '" ++ name ++ "'"
  | expression error => error.message

/-- The whole message. -/
def message (e : ClosureError) : String :=
  e.fault.label ++ e.reason

end ClosureError

end QueryCompiler
