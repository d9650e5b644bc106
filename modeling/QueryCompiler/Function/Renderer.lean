import QueryCompiler.Function.Argument

/-!
# Rendering functions

The ways in which a function becomes SQL. Some renderers serve several functions and choose by the
name under which they are called. A function that has nothing to say of its arguments renders as
the empty text, and an arithmetic one as `0`.
-/

namespace QueryCompiler

/-- What is wrong with a function's arguments. -/
inductive ArgumentFault
  | patternNotLiteral (sql : String)
  | startNotInteger
  | startOutOfRange
  | lengthNotInteger
  | tooMany (limit count : Nat)
  /-- What a renderer that is none of those here has to say. -/
  | other (reason : String)
deriving DecidableEq

/-- The words for a fault. -/
def ArgumentFault.reason : ArgumentFault → String
  | patternNotLiteral sql => "pattern must be a scalar literal, got " ++ sql
  | startNotInteger => "start position must be an integer"
  | startOutOfRange => "start position out of range"
  | lengthNotInteger => "length must be an integer"
  | tooMany limit count =>
    "expected at most " ++ toString limit ++ " arguments, got " ++ toString count
  | other reason => reason

/-- Why a function cannot be rendered. -/
inductive FunctionError
  | notFound (name : String)
  | invalidArgument (function : String) (fault : ArgumentFault)
deriving DecidableEq

/-- The message for a failure. -/
def FunctionError.message : FunctionError → String
  | notFound name => "Function not found: " ++ name
  | invalidArgument function fault =>
    "Invalid argument for function " ++ function ++ ": " ++ fault.reason

/-- A way to render a function. -/
inductive Renderer
  | startsWith
  | endsWith
  | contains
  | unary
  | concat
  | indexOf
  | substring
  | round
  | arithmetic
deriving DecidableEq

namespace Renderer

open Argument (present? sqlAt)

/-- The SQL names of the functions of one argument. -/
def unaryNames : List (String × String) :=
  [("length", "LENGTH"), ("trim", "TRIM"), ("tolower", "LOWER"), ("toupper", "UPPER"),
   ("day", "DAY"), ("month", "MONTH"), ("year", "YEAR"), ("hour", "HOUR"), ("minute", "MINUTE"),
   ("second", "SECOND"), ("date", "DATE"), ("floor", "FLOOR"), ("ceiling", "CEILING")]

/-- The signs of the arithmetic functions. -/
def arithmeticSigns : List (String × String) :=
  [("add", "+"), ("sub", "-"), ("mul", "*"), ("div", "/"), ("mod", "%"), ("bit", "&")]

/-- The text of an argument inside a pattern. -/
def patternText (name : String) (arg : Argument) : Except FunctionError String :=
  match arg.pattern with
  | some text => .ok text
  | none => .error (.invalidArgument name (.patternNotLiteral arg.sql))

/-- A comparison with a regular expression. -/
def regexp (subject before body after : String) : String :=
  "(" ++ subject ++ " REGEXP '" ++ before ++ body ++ after ++ "')"

/-- A comparison with a regular expression made from the second argument, nothing if an argument is
missing or null. -/
def patternCall (name before after : String) (args : List Argument) :
    Except FunctionError String :=
  match present? args 0, present? args 1 with
  | some subject, some arg => do
    return regexp subject.sql before (← patternText name arg) after
  | _, _ => .ok ""

/-- The same without anchors; an empty pattern says nothing. -/
def containsCall (name : String) (args : List Argument) : Except FunctionError String :=
  match present? args 0, present? args 1 with
  | some subject, some arg => do
    let body ← patternText name arg
    return if body = "" then "" else regexp subject.sql "" body ""
  | _, _ => .ok ""

/-- The part of a text from a position that counts from zero, which SQL counts from one. A length
of zero is no length. -/
def substringCall (name : String) (args : List Argument) : Except FunctionError String := do
  let start ← match (present? args 1).bind Argument.integer with
    | some start => pure start
    | none => .error (.invalidArgument name .startNotInteger)
  let position ← match int64? (start.toInt + 1) with
    | some position => pure position
    | none => .error (.invalidArgument name .startOutOfRange)
  let opening := "SUBSTRING(" ++ sqlAt args 0 ++ "," ++ toString position.toInt
  match present? args 2 with
  | none => return opening ++ ")"
  | some arg => match arg.integer with
    | none => .error (.invalidArgument name .lengthNotInteger)
    | some length =>
      return if length = 0 then opening ++ ")" else opening ++ "," ++ toString length.toInt ++ ")"

/-- Renders a call of the function `name`. -/
def render (renderer : Renderer) (name : String) (args : List Argument) :
    Except FunctionError String :=
  match renderer with
  | startsWith => patternCall name "^" "" args
  | endsWith => patternCall name "" "$" args
  | contains => containsCall name args
  | unary => match unaryNames.lookup name with
    | some sqlName => .ok (sqlName ++ "(" ++ sqlAt args 0 ++ ")")
    | none => .error (.notFound name)
  | concat => .ok ("CONCAT(" ++ sqlAt args 0 ++ "," ++ sqlAt args 1 ++ ")")
  | indexOf => .ok ("LOCATE(" ++ sqlAt args 1 ++ "," ++ sqlAt args 0 ++ ")")
  | substring => substringCall name args
  | round =>
    let digits := ((present? args 1).map Argument.sql).getD "0"
    .ok ("ROUND(" ++ sqlAt args 0 ++ "," ++ digits ++ ")")
  | arithmetic => match arithmeticSigns.lookup name with
    | none => .error (.notFound name)
    | some sign => match present? args 0, present? args 1 with
      | some a, some b => .ok ("(" ++ a.sql ++ " " ++ sign ++ " " ++ b.sql ++ ")")
      | _, _ => .ok "0"

end Renderer

/-- Something by which calls can be rendered. -/
class Renders (ρ : Type) where
  /-- Renders a call of the function `name`. -/
  render (renderer : ρ) (name : String) (args : List Argument) : Except FunctionError String

instance : Renders Renderer := ⟨Renderer.render⟩

@[simp] theorem Renders.render_renderer (renderer : Renderer) :
    Renders.render renderer = renderer.render := rfl

/-- A renderer that is none of those here: it makes anything of a name and arguments. -/
abbrev CustomRenderer := String → List Argument → Except FunctionError String

instance : Renders CustomRenderer := ⟨id⟩

end QueryCompiler
