import QueryCompiler.Closure.Error

/-!
# Resolving names

A resolver says which field a member is and which function a method. `Resolver.identity` leaves
members as they are and knows no methods, `Resolver.standard` knows the usual methods of texts,
dates and numbers, and a schema makes a resolver of its own tables.
-/

namespace QueryCompiler.Closure

/-- What names stand for. -/
structure Resolver where
  /-- The field that a member is. -/
  member : String → Except ClosureError String
  /-- The field that a chain of members is, from the first to the last. -/
  path : List String → Except ClosureError String
  /-- What a method makes of its arguments, of which the first is the object that it was called on
  unless that is a namespace; nothing if there is no such method. -/
  method : String → List Expression → Except ClosureError (Option Expression)

/-- The last member of a chain decides. -/
def lastMember (member : String → Except ClosureError String) (path : List String) :
    Except ClosureError String :=
  match path.getLast? with
  | some name => member name
  | none => .error .emptyPath

/-- A method and the function that does its work. -/
structure Method where
  name : String
  function : String
  /-- How many arguments it takes, the object counted. -/
  least : Nat
  most : Nat
deriving DecidableEq

/-- The methods of texts, dates and numbers. -/
def standardMethods : List Method :=
  [⟨"startsWith", "startswith", 2, 2⟩,
   ⟨"endsWith", "endswith", 2, 2⟩,
   ⟨"includes", "contains", 2, 2⟩,
   ⟨"indexOf", "indexof", 2, 2⟩,
   ⟨"substr", "substring", 2, 3⟩,
   ⟨"substring", "substring", 2, 3⟩,
   ⟨"toLowerCase", "tolower", 1, 1⟩,
   ⟨"toUpperCase", "toupper", 1, 1⟩,
   ⟨"trim", "trim", 1, 1⟩,
   ⟨"concat", "concat", 2, 2⟩,
   ⟨"getDate", "day", 1, 1⟩,
   ⟨"getFullYear", "year", 1, 1⟩,
   ⟨"getHours", "hour", 1, 1⟩,
   ⟨"getMinutes", "minute", 1, 1⟩,
   ⟨"getSeconds", "second", 1, 1⟩,
   ⟨"Math.round", "round", 1, 2⟩,
   ⟨"Math.floor", "floor", 1, 1⟩,
   ⟨"Math.ceil", "ceiling", 1, 1⟩]

/-- The length between two positions, nothing if the end comes first. -/
def lengthBetween (start stop : Expression) : Except ClosureError Expression :=
  match start, stop with
  | .literal (.integer start), .literal (.integer stop) =>
    match int64? (stop.toInt - start.toInt) with
    | some length => .ok (.literal (.integer (if length < 0 then 0 else length)))
    | none => .error .substringRange
  | _, _ => .error .substringBounds

/-- The arguments of the function that does a method's work. A method that is given an end needs a
length instead. -/
def functionArguments (method : Method) (arguments : List Expression) :
    Except ClosureError (List Expression) :=
  match arguments with
  | [object, start, stop] =>
    if method.name = "substring" then do return [object, start, ← lengthBetween start stop]
    else .ok arguments
  | _ => .ok arguments

/-- What one of the standard methods makes of its arguments. -/
def standardMethod (name : String) (arguments : List Expression) :
    Except ClosureError (Option Expression) :=
  match standardMethods.find? fun method => method.name = name with
  | none => .ok none
  | some method =>
    if arguments.length < method.least ∨ method.most < arguments.length then
      .error (.argumentCount name arguments.length)
    else do return some (.call method.function (← functionArguments method arguments))

/-- Names and methods of a schema. -/
structure Schema where
  /-- The fields by member; without a list every member is a field. -/
  members : Option (List (String × String)) := none
  /-- A chain of members is a field of its own, named by all of them with points in between. -/
  joinsPaths : Bool := false
  /-- The functions by method, with the arguments as they are. -/
  methods : List (String × String) := []
  /-- The standard methods are there too. -/
  hasStandardMethods : Bool := false

namespace Schema

/-- The field that a member is. -/
def member (schema : Schema) (name : String) : Except ClosureError String :=
  match schema.members with
  | none => .ok name
  | some members => match members.lookup name with
    | some field => .ok field
    | none => .error (.unknownAttribute name)

/-- What a method makes of its arguments. -/
def method (schema : Schema) (name : String) (arguments : List Expression) :
    Except ClosureError (Option Expression) :=
  match schema.methods.lookup name with
  | some function => .ok (some (.call function arguments))
  | none => if schema.hasStandardMethods then standardMethod name arguments else .ok none

/-- The resolver of a schema. -/
def resolver (schema : Schema) : Resolver where
  member := schema.member
  path path :=
    if schema.joinsPaths then .ok (Text.joined "." path) else lastMember schema.member path
  method := schema.method

end Schema

namespace Resolver

/-- Members are fields, and there are no methods. -/
def identity : Resolver where
  member := .ok
  path := lastMember .ok
  method _ _ := .ok none

/-- Members are fields, and the methods are the standard ones. -/
def standard : Resolver where
  member := .ok
  path := lastMember .ok
  method := standardMethod

end Resolver

end QueryCompiler.Closure
