import QueryCompiler.Query.Inspection
import QueryCompiler.Query.Field
import QueryCompiler.Query.Filter

/-!
# Expressions over fields

What a closure says once its names are fields and its methods functions. An expression that is a
condition has a filter. A filter names one field on its left, so that a comparison has to have a
field on one side: alone, as an operand of arithmetic, or as the first argument of a function.
-/

namespace QueryCompiler.Closure

/-- What an operator makes of its operands. -/
inductive OperatorClass
  | logical
  | comparison
  | arithmetic
deriving DecidableEq

/-- The class's name. -/
def OperatorClass.name : OperatorClass → String
  | logical => "logical"
  | comparison => "comparison"
  | arithmetic => "arithmetic"

/-- An operator of two operands. -/
inductive Operator
  | eq
  | ne
  | gt
  | ge
  | lt
  | le
  | add
  | sub
  | mul
  | div
  | mod
  | and
  | or
deriving DecidableEq

namespace Operator

/-- All operators. -/
def all : List Operator := [eq, ne, gt, ge, lt, le, add, sub, mul, div, mod, and, or]

/-- The operator's name. -/
def name : Operator → String
  | eq => "Eq"
  | ne => "Ne"
  | gt => "Gt"
  | ge => "Ge"
  | lt => "Lt"
  | le => "Le"
  | add => "Add"
  | sub => "Sub"
  | mul => "Mul"
  | div => "Div"
  | mod => "Mod"
  | and => "And"
  | or => "Or"

/-- The operator with a given name. -/
def ofName? (name : String) : Option Operator :=
  all.find? fun op => op.name = name

/-- The operator's class. -/
def operatorClass : Operator → OperatorClass
  | eq | ne | gt | ge | lt | le => .comparison
  | add | sub | mul | div | mod => .arithmetic
  | and | or => .logical

/-- The comparison or arithmetic operator that is written as a given token. Equality is the same
with two and with three signs. -/
def ofBinary? : String → Option Operator
  | "===" | "==" => some eq
  | "!==" | "!=" => some ne
  | ">" => some gt
  | ">=" => some ge
  | "<" => some lt
  | "<=" => some le
  | "+" => some add
  | "-" => some sub
  | "*" => some mul
  | "/" => some div
  | "%" => some mod
  | _ => none

/-- The logical operator that is written as a given token. -/
def ofLogical? : String → Option Operator
  | "&&" => some and
  | "||" => some or
  | _ => none

/-- The comparison of a query. -/
def comparison? : Operator → Option ComparisonOp
  | eq => some .eq
  | ne => some .ne
  | gt => some .gt
  | ge => some .gte
  | lt => some .lt
  | le => some .lte
  | _ => none

/-- The connective of a query. -/
def connective? : Operator → Option Connective
  | and => some .and
  | or => some .or
  | _ => none

/-- The function of a query that does the arithmetic. -/
def function? : Operator → Option String
  | add => some "add"
  | sub => some "sub"
  | mul => some "mul"
  | div => some "div"
  | mod => some "mod"
  | _ => none

/-- The operands may change places. -/
def commutes : Operator → Bool
  | add | mul => true
  | _ => false

theorem comparison?_isSome (op : Operator) :
    op.comparison?.isSome = (op.operatorClass = .comparison) := by
  cases op <;> simp [comparison?, operatorClass]

theorem function?_isSome (op : Operator) :
    op.function?.isSome = (op.operatorClass = .arithmetic) := by
  cases op <;> simp [function?, operatorClass]

end Operator

/-- An expression over fields. -/
inductive Expression
  | logical (op : Operator) (operands : List Expression)
  | comparison (left : Expression) (op : Operator) (right : Expression)
  | arithmetic (left : Expression) (op : Operator) (right : Expression)
  /-- A field. -/
  | member (name : String)
  | literal (value : Value)
  /-- A function of a query; its first argument is the field that it is called on. -/
  | call (function : String) (arguments : List Expression)
deriving Inhabited

/-- The words that say which expression is meant. -/
def Expression.describe : Expression → String
  | .logical op _ => "logical " ++ op.name ++ " expression"
  | .comparison _ op _ => "comparison " ++ op.name
  | .arithmetic _ op _ => "arithmetic " ++ op.name
  | .member name => "member '" ++ name ++ "'"
  | .literal value => "literal " ++ value.inspect
  | .call function _ => "method '" ++ function ++ "'"

/-- Why an expression cannot be made, or has no filter. -/
inductive ExpressionError
  /-- An operator is of another class than its place asks for. -/
  | wrongClass (op : Operator) (expected : OperatorClass)
  /-- An expression stands where only a field or a literal can. -/
  | notOperand (e : Expression)
  /-- An expression is no condition. -/
  | notCondition (e : Expression)
  /-- Arithmetic does not begin with a field. -/
  | noLeadingMember (e : Expression)
  /-- A comparison has no field on either side. -/
  | notComparable (left right : Expression)
  /-- A function is not called on a field. -/
  | noReceiver (function : String)

/-- The message for a failure. -/
def ExpressionError.message : ExpressionError → String
  | wrongClass op expected => op.name ++ " is not a " ++ expected.name ++ " operator"
  | notOperand e => unsupported (e.describe ++ " as a comparison operand")
  | notCondition e => unsupported (e.describe ++ " on its own")
  | noLeadingMember e => unsupported (e.describe ++ " without a leading member")
  | notComparable left right =>
    unsupported ("comparison between " ++ left.describe ++ " and " ++ right.describe)
  | noReceiver function => unsupported ("method '" ++ function ++ "' without a member receiver")
where
  unsupported (what : String) : String := what ++ " cannot be expressed as a filter"

namespace Expression

/-- A logical expression, if the operator is logical. -/
def ofLogical (op : Operator) (operands : List Expression) : Except ExpressionError Expression :=
  if op.operatorClass = .logical then .ok (.logical op operands)
  else .error (.wrongClass op .logical)

/-- A comparison, if the operator is one. -/
def ofComparison (left : Expression) (op : Operator) (right : Expression) :
    Except ExpressionError Expression :=
  if op.operatorClass = .comparison then .ok (.comparison left op right)
  else .error (.wrongClass op .comparison)

/-- Arithmetic, if the operator does some. -/
def ofArithmetic (left : Expression) (op : Operator) (right : Expression) :
    Except ExpressionError Expression :=
  if op.operatorClass = .arithmetic then .ok (.arithmetic left op right)
  else .error (.wrongClass op .arithmetic)

/-- A literal or a field as an operand. -/
def operand : Expression → Except ExpressionError Operand
  | .literal value => .ok (.value value)
  | .member name => .ok (.field (.select name))
  | e => .error (.notOperand e)

/-- A function of a field whose result has to pass some tests. -/
def functionFilter (function : String) (arguments : List Expression) (tests : List Test) :
    Except ExpressionError Filter :=
  match arguments with
  | .member field :: rest => do return .function field function (← rest.mapM operand) tests
  | _ => .error (.noReceiver function)

/-- The field of some arithmetic and what it is combined with. -/
def subjectOf? (left : Expression) (op : Operator) (right : Expression) :
    Option (String × Expression) :=
  match left, right with
  | .member field, argument => some (field, argument)
  | argument, .member field => if op.commutes then some (field, argument) else none
  | _, _ => none

/-- The filter of arithmetic whose result has to pass a test. -/
def arithmeticFilter (left : Expression) (op : Operator) (right : Expression) (test : ComparisonOp)
    (against : Expression) : Except ExpressionError Filter :=
  match subjectOf? left op right with
  | none => .error (.noLeadingMember (.arithmetic left op right))
  | some (field, argument) => match op.function? with
    | none => .error (.wrongClass op .arithmetic)
    | some function => do
      return .function field function [← argument.operand] [⟨test, ← against.operand⟩]

/-- The filter of a comparison whose field is on the left. -/
def subjectFilter (subject : Expression) (op : ComparisonOp) (against : Expression) :
    Except ExpressionError Filter :=
  match subject with
  | .member field => do return .compare field ⟨op, ← against.operand⟩
  | .arithmetic left inner right => arithmeticFilter left inner right op against
  | .call function arguments => do
    functionFilter function arguments [⟨op, ← against.operand⟩]
  | _ => .error (.notComparable subject against)

/-- The filter of a comparison. A literal on the left changes places with a field on the right. -/
def comparisonFilter (left : Expression) (op : ComparisonOp) (right : Expression) :
    Except ExpressionError Filter :=
  match left, right with
  | .literal _, .member _ | .literal _, .arithmetic .. | .literal _, .call .. =>
    subjectFilter right op.flip left
  | _, _ => subjectFilter left op right

mutual

/-- The filter of a condition. A function on its own has to be true. -/
def toFilter : Expression → Except ExpressionError Filter
  | .logical op operands => match op.connective? with
    | none => .error (.wrongClass op .logical)
    | some connective => do return .logical connective (← listToFilters operands)
  | .comparison left op right => match op.comparison? with
    | none => .error (.wrongClass op .comparison)
    | some relation => comparisonFilter left relation right
  | .call function arguments =>
    functionFilter function arguments [⟨.eq, .value (.bool true)⟩]
  | .arithmetic left op right => .error (.notCondition (.arithmetic left op right))
  | .member name => .error (.notCondition (.member name))
  | .literal value => .error (.notCondition (.literal value))

/-- The filters of some conditions. -/
def listToFilters : List Expression → Except ExpressionError (List Filter)
  | [] => .ok []
  | e :: rest => do return (← toFilter e) :: (← listToFilters rest)

end

end Expression

end QueryCompiler.Closure
