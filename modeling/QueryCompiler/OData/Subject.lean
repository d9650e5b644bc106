import QueryCompiler.OData.Literal
import QueryCompiler.Text.Joined

/-!
# Left sides of terms

A term compares a property, or a function of one, with a literal.
-/

namespace QueryCompiler.OData

/-- A function of a property alone. -/
inductive PropertyFunction
  | indexOf
  | length
  | toLower
  | toUpper
  | trim
  | day
  | month
  | year
  | hour
  | minute
  | second
  | round
  | floor
  | ceiling
deriving DecidableEq

/-- The function's name. -/
def PropertyFunction.name : PropertyFunction → String
  | indexOf => "indexof"
  | length => "length"
  | toLower => "tolower"
  | toUpper => "toupper"
  | trim => "trim"
  | day => "day"
  | month => "month"
  | year => "year"
  | hour => "hour"
  | minute => "minute"
  | second => "second"
  | round => "round"
  | floor => "floor"
  | ceiling => "ceiling"

/-- A function of a property and a literal. -/
inductive TextFunction
  | startsWith
  | endsWith
  | substringOf
deriving DecidableEq

/-- The function's name. -/
def TextFunction.name : TextFunction → String
  | startsWith => "startswith"
  | endsWith => "endswith"
  | substringOf => "substringof"

/-- What a term is about. -/
inductive Subject
  | property (name : String)
  | ofProperty (function : PropertyFunction) (name : String)
  | ofText (function : TextFunction) (name : String) (value : Value)
  | substring (name : String) (position length : UInt32)
  | concat (values : List Value)
deriving DecidableEq

/-- A function call. -/
def call (function : String) (arguments : List String) : String :=
  function ++ "(" ++ Text.joined "," arguments ++ ")"

/-- How the subject is written. -/
def Subject.text : Subject → String
  | property name => name
  | ofProperty function name => call function.name [name]
  | ofText function name value => call function.name [name, literal value]
  | substring name position length =>
    call "substring" [name, toString position.toNat, toString length.toNat]
  | concat values => call "concat" (values.map literal)

end QueryCompiler.OData
