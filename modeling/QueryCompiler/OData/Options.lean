import QueryCompiler.Json.Basic
import QueryCompiler.OData.Subject
import QueryCompiler.Query.Operator

/-!
# Options of a request

A request is put together in steps. A step that names a subject stages it, and the next comparison
completes it to a term of the filter. A filter without parentheses is one run of a connective: a
term with the other connective puts the run into parentheses first, so that what is written means
what was said from left to right.
-/

namespace QueryCompiler.OData

/-- How a subject is compared with a literal. -/
inductive Relation
  | eq
  | ne
  | gt
  | ge
  | lt
  | le
deriving DecidableEq

/-- The word for a relation. -/
def Relation.word : Relation → String
  | eq => "eq"
  | ne => "ne"
  | gt => "gt"
  | ge => "ge"
  | lt => "lt"
  | le => "le"

/-- The word for a connective. -/
def connectiveWord : Connective → String
  | .and => "and"
  | .or => "or"

/-- What is said of a subject. -/
inductive Predicate
  | compare (relation : Relation) (value : Value)
  | isIn (values : List Value)
  | notIn (values : List Value)
deriving DecidableEq

/-- A comparison of a subject with a literal. -/
def atom (subject : String) (relation : Relation) (value : Value) : String :=
  subject ++ " " ++ relation.word ++ " " ++ literal value

/-- One comparison for each value, in parentheses; nothing if there is no value. -/
def expansion? (subject : String) (relation : Relation) (connective : Connective)
    (values : List Value) : Option String :=
  if values = [] then none
  else
    let atoms := values.map (atom subject relation)
    some ("(" ++ Text.joined (" " ++ connectiveWord connective ++ " ") atoms ++ ")")

/-- The term that a predicate makes of a subject. -/
def Predicate.term? (subject : String) : Predicate → Option String
  | compare relation value => some (atom subject relation value)
  | isIn values => expansion? subject .eq .or values
  | notIn values => expansion? subject .ne .and values

/-- What has been said of the filter and waits for its other half. -/
structure Staged where
  /-- The text of the subject that the next predicate is about. -/
  subject : Option String := none
  /-- How the next term is joined to the filter. -/
  connective : Option Connective := none
  /-- How the last term was joined to the filter. -/
  last : Option Connective := none
deriving DecidableEq

/-- The options of a request. -/
structure Options where
  /-- The model that is asked, which is no part of the options' text. -/
  model : Option String := none
  filter : Option String := none
  select : Option String := none
  orderBy : Option String := none
  top : Option UInt64 := none
  skip : Option UInt64 := none
  staged : Staged := {}
deriving DecidableEq

/-- A step in putting a request together. -/
inductive Step
  | model (name : String)
  /-- Names what the next predicate is about, and how its term is joined if that is said. -/
  | subject (connective : Option Connective) (subject : Subject)
  | predicate (predicate : Predicate)
  | select (names : List String)
  | top (n : UInt64)
  | skip (n : UInt64)
  /-- Replaces the ordering. -/
  | orderBy (direction : Direction) (name : String)
  /-- Adds to the ordering. -/
  | thenBy (direction : Direction) (name : String)
deriving DecidableEq

namespace Options

/-- A term joined to the filter. Nothing is put into parentheses before the first join. -/
def addTerm (o : Options) (connective : Connective) (term : String) : Options :=
  match o.filter with
  | none => { o with filter := some term }
  | some filter =>
    let run := if o.staged.last.getD connective = connective then filter else "(" ++ filter ++ ")"
    { o with
      filter := some (run ++ " " ++ connectiveWord connective ++ " " ++ term)
      staged.last := some connective }

/-- Completes the staged subject to a term. What was staged is used up, whether there is a term or
not. -/
def addPredicate (o : Options) (predicate : Predicate) : Options :=
  let connective := o.staged.connective.getD .and
  let rest := { o with staged.subject := none, staged.connective := none }
  match o.staged.subject.bind predicate.term? with
  | none => rest
  | some term => rest.addTerm connective term

/-- An item of the ordering. -/
def orderItem : Direction → String → String
  | .ascending, name => name
  | .descending, name => name ++ " desc"

/-- The options after a step. -/
def apply (o : Options) : Step → Options
  | .model name => { o with model := some name }
  | .subject none subject => { o with staged.subject := some subject.text }
  | .subject (some connective) subject =>
    { o with staged.subject := some subject.text, staged.connective := some connective }
  | .predicate predicate => o.addPredicate predicate
  | .select names => { o with select := some (Text.joined "," names) }
  | .top n => { o with top := some n }
  | .skip n => { o with skip := some n }
  | .orderBy direction name => { o with orderBy := some (orderItem direction name) }
  | .thenBy direction name =>
    let item := orderItem direction name
    { o with orderBy := some (match o.orderBy with
        | some items => items ++ "," ++ item
        | none => item) }

/-- The options after some steps. -/
def run (o : Options) (steps : List Step) : Options :=
  steps.foldl apply o

/-- The options behind their names, not yet encoded for an address. -/
def text (o : Options) : String :=
  let options := [("$filter", o.filter), ("$select", o.select), ("$orderby", o.orderBy),
    ("$top", o.top.map fun n => toString n.toNat), ("$skip", o.skip.map fun n => toString n.toNat)]
  Text.joined "&" (options.filterMap fun (name, value) => value.map (name ++ "=" ++ ·))

/-- The options and the model as a document. -/
def toJson (o : Options) : Json :=
  let members := [("$model", o.model.map Json.string), ("$filter", o.filter.map .string),
    ("$select", o.select.map .string), ("$orderby", o.orderBy.map .string),
    ("$top", o.top.map fun n => .integer n.toNat), ("$skip", o.skip.map fun n => .integer n.toNat)]
  .object (members.filterMap fun (key, value) => value.map fun json => (key, json))

end Options

end QueryCompiler.OData
