import QueryCompiler.Closure.Grammar
import QueryCompiler.Closure.Resolver
import QueryCompiler.Document.Reading

/-!
# From closures to filters

A closure's tree becomes an expression over fields. A chain of members begins with a parameter of
the closure, or with a field where there are no parameters. The tree is looked at from the left to
the right, and the first fault is the one that is told.
-/

namespace QueryCompiler.Closure

/-- The name of a property. -/
def propertyName : Node → Except ClosureError String
  | .identifier name => .ok name
  | .literal (.string name) _ => .ok name
  | other => .error (.invalidProperty other.kind)

/-- The names of a chain of members, from the first to the last, without the parameter that the
chain begins with. -/
def memberPath (parameters : List String) : Node → Except ClosureError (List String)
  | .member _ object property => do
    let name ← propertyName property
    return (← memberPath parameters object) ++ [name]
  | .identifier name =>
    if parameters = [] then .ok [name]
    else if name ∈ parameters then .ok []
    else .error (.notParameter name)
  | other => .error (.memberOf other.kind)

/-- The field that a chain of members is. -/
def memberField (resolver : Resolver) (parameters : List String) (node : Node) :
    Except ClosureError Expression := do
  let path ← memberPath parameters node
  if path = [] then .error .parameterAsValue
  else return .member (← resolver.path path)

/-- A literal. -/
def literalExpression (value : Json) : Except ClosureError Expression :=
  match Value.ofJson value with
  | .ok v => .ok (.literal v)
  | .error e => .error (.notValue e)

/-- The negative of a literal. -/
def negated (value : Json) : Except ClosureError Expression := do
  match ← literalExpression value with
  | .literal (.integer n) => match int64? (-n.toInt) with
    | some m => return .literal (.integer m)
    | none => .error (.negationOverflow n)
  | .literal (.float x) => return .literal (.float (-x))
  | _ => .error .negatedNonNumber

/-- An expression of an operator that is no logical one. -/
def binaryExpression (left : Expression) (op : Operator) (right : Expression) :
    Except ExpressionError Expression :=
  if op.operatorClass = .arithmetic then Expression.ofArithmetic left op right
  else Expression.ofComparison left op right

/-- What an expression's own checks say of a closure. -/
def orExpressionError {α : Type} : Except ExpressionError α → Except ClosureError α
  | .ok a => .ok a
  | .error e => .error (.expression e)

/-- The name stands for a namespace, such as that of the functions of numbers. -/
def isNamespace (parameters : List String) (name : String) : Bool :=
  parameters ≠ [] ∧ name ∉ parameters

/-- What a method makes of its arguments, if there is such a method. -/
def methodCall (resolver : Resolver) (name : String) (arguments : List Expression) :
    Except ClosureError Expression := do
  match ← resolver.method name arguments with
  | some e => return e
  | none => .error (.untranslated name)

mutual

/-- The expression over fields that a tree stands for. -/
def lower (resolver : Resolver) (parameters : List String) : Node → Except ClosureError Expression
  | .logical operator (some left) (some right) => match Operator.ofLogical? operator with
    | none => .error (.invalidOperator "logical" operator)
    | some op => do
      let left ← lower resolver parameters left
      let right ← lower resolver parameters right
      orExpressionError (Expression.ofLogical op [left, right])
  | .logical _ _ _ => .error (.missingOperand "logical")
  | .binary operator left right => match Operator.ofBinary? operator with
    | none => .error (.invalidOperator "binary" operator)
    | some op => match left, right with
      | some left, some right => do
        let left ← lower resolver parameters left
        let right ← lower resolver parameters right
        orExpressionError (binaryExpression left op right)
      | _, _ => .error (.missingOperand "binary")
  | .member computed object property =>
    memberField resolver parameters (.member computed object property)
  | .identifier name => memberField resolver parameters (.identifier name)
  | .literal value _ => literalExpression value
  | .unary "-" (.literal value _) _ => negated value
  | .unary operator _ _ => .error (.unaryOperator operator)
  | .call (.member _ (.identifier object) property) arguments => do
    let method ← propertyName property
    if isNamespace parameters object then
      methodCall resolver (object ++ "." ++ method) (← lowerAll resolver parameters arguments)
    else
      let receiver ← memberField resolver parameters (.identifier object)
      methodCall resolver method (receiver :: (← lowerAll resolver parameters arguments))
  | .call (.member _ object property) arguments => do
    let method ← propertyName property
    let receiver ← lower resolver parameters object
    methodCall resolver method (receiver :: (← lowerAll resolver parameters arguments))
  | .call (.identifier name) arguments => do
    methodCall resolver name (← lowerAll resolver parameters arguments)
  | .call callee _ => .error (.callOn callee.kind)

/-- The expressions that some trees stand for. -/
def lowerAll (resolver : Resolver) (parameters : List String) :
    List Node → Except ClosureError (List Expression)
  | [] => .ok []
  | node :: nodes => do
    let e ← lower resolver parameters node
    return e :: (← lowerAll resolver parameters nodes)

end

/-- The closure that a text writes. A numeral that is too large is told only of a text that is a
closure otherwise. -/
def ofText (text : String) : Except ClosureError Closure :=
  match Token.all? text.toList with
  | none => .error .malformed
  | some tokens => match ofTokens? tokens with
    | none => .error .malformed
    | some closure => match tooLarge? tokens with
      | some raw => .error (.numberTooLarge raw)
      | none => .ok closure

/-- The expression over fields that a closure stands for. -/
def toExpression (resolver : Resolver) (closure : Closure) :
    Except ClosureError Expression :=
  lower resolver closure.parameters closure.body

/-- The filter that a closure stands for. -/
def toFilter (resolver : Resolver) (closure : Closure) : Except ClosureError Filter := do
  orExpressionError (← closure.toExpression resolver).toFilter

end QueryCompiler.Closure
