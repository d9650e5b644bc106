import QueryCompiler.Closure.Node

/-!
# Closures as documents

A tree is written as an object with its type and its parts by name. It is read from such an object,
whose parts may come in any order, or from an array with the type and the parts in their order. What
may be left out is an operand, an empty list of arguments, the text of a literal and a flag.
-/

namespace QueryCompiler.Closure

namespace Node

/-- An object with a type and named parts. -/
def record (kind : NodeKind) (parts : List (String × Json)) : Json :=
  .object (("type", .string kind.name) :: parts)

mutual

/-- The document of a tree. -/
def toJson : Node → Json
  | .logical operator left right =>
    record .logical
      [("operator", .string operator), ("left", optionToJson left), ("right", optionToJson right)]
  | .binary operator left right =>
    record .binary
      [("operator", .string operator), ("left", optionToJson left), ("right", optionToJson right)]
  | .unary operator operand leads =>
    record .unary
      [("operator", .string operator), ("argument", toJson operand), ("prefix", .bool leads)]
  | .member computed object property =>
    record .member
      [("computed", .bool computed), ("object", toJson object), ("property", toJson property)]
  | .call callee arguments =>
    record .call [("callee", toJson callee), ("arguments", .array (listToJson arguments))]
  | .literal value raw => record .literal [("value", value), ("raw", .string raw)]
  | .identifier name => record .identifier [("name", .string name)]

/-- The document of an operand, null if there is none. -/
def optionToJson : Option Node → Json
  | none => .null
  | some node => toJson node

/-- The documents of some trees. -/
def listToJson : List Node → List Json
  | [] => []
  | node :: nodes => toJson node :: listToJson nodes

end

end Node

/-- The document of a closure. -/
def toJson (closure : Closure) : Json :=
  .object [("params", .array (closure.parameters.map .string)), ("body", closure.body.toJson)]

/-- The names of a tree's parts, in their order. -/
def NodeKind.partNames : NodeKind → List String
  | logical | binary => ["operator", "left", "right"]
  | unary => ["operator", "argument", "prefix"]
  | member => ["computed", "object", "property"]
  | call => ["callee", "arguments"]
  | literal => ["value", "raw"]
  | identifier => ["name"]

/-- The kind that a tree's type names. The type of a tree inside another may also be the number of
its kind. -/
def NodeKind.ofJson? (inside : Bool) : Json → Option NodeKind
  | .string name => ofName? name
  | .integer n => if inside ∧ 0 ≤ n then all[n.toNat]? else none
  | _ => none

namespace Node

/-- A part of a tree's document, as it stands and as what it may be read. -/
structure Part where
  json : Json
  node? : Unit → Option Node
  nodes? : Unit → Option (List Node)

/-- The parts of a tree's document by name. -/
abbrev Parts := List (String × Part)

namespace Parts

variable (parts : Parts)

/-- A text. -/
def text? (key : String) : Option String := do
  match (← parts.lookup key).json with
  | .string s => some s
  | _ => none

/-- A flag that may be left out. -/
def flag? (key : String) (standard : Bool) : Option Bool :=
  match (parts.lookup key).map Part.json with
  | none => some standard
  | some (.bool b) => some b
  | some _ => none

/-- A tree. -/
def node? (key : String) : Option Node := do
  (← parts.lookup key).node? ()

/-- A tree that may be left out or be null. -/
def optionalNode? (key : String) : Option (Option Node) :=
  match parts.lookup key with
  | none => some none
  | some part => match part.json with
    | .null => some none
    | _ => (part.node? ()).map some

/-- Trees that may be left out. -/
def nodes? (key : String) : Option (List Node) :=
  match parts.lookup key with
  | none => some []
  | some part => part.nodes? ()

/-- A text that may be left out. -/
def optionalText? (key : String) : Option String :=
  match (parts.lookup key).map Part.json with
  | none => some ""
  | some (.string s) => some s
  | some _ => none

/-- The tree of a kind with its parts. -/
def assemble? : NodeKind → Option Node
  | .logical => do
    return .logical (← text? parts "operator") (← optionalNode? parts "left")
      (← optionalNode? parts "right")
  | .binary => do
    return .binary (← text? parts "operator") (← optionalNode? parts "left")
      (← optionalNode? parts "right")
  | .unary => do
    return .unary (← text? parts "operator") (← node? parts "argument")
      (← flag? parts "prefix" true)
  | .member => do
    return .member (← flag? parts "computed" false) (← node? parts "object")
      (← node? parts "property")
  | .call => do return .call (← node? parts "callee") (← nodes? parts "arguments")
  | .literal => do
    return .literal (← (parts.lookup "value").map Part.json) (← optionalText? parts "raw")
  | .identifier => do return .identifier (← text? parts "name")

end Parts

mutual

/-- The tree that a document writes. -/
def ofJson? (inside : Bool) : Json → Option Node
  | .object members => do
    let kind ← NodeKind.ofJson? inside (← Json.member? "type" members)
    Parts.assemble? (partsOfMembers members) kind
  | .array (type :: items) => do
    let kind ← NodeKind.ofJson? inside type
    if kind.partNames.length < items.length then none
    else Parts.assemble? (kind.partNames.zip (partsOfItems items)) kind
  | _ => none

/-- The parts that an object's members are. -/
def partsOfMembers : List (String × Json) → Parts
  | [] => []
  | (key, json) :: rest =>
    (key, ⟨json, fun _ => ofJson? true json, fun _ => listOfJson? json⟩) :: partsOfMembers rest

/-- The parts that an array's items are. -/
def partsOfItems : List Json → List Part
  | [] => []
  | json :: rest =>
    ⟨json, fun _ => ofJson? true json, fun _ => listOfJson? json⟩ :: partsOfItems rest

/-- The trees that an array writes. -/
def listOfJson? : Json → Option (List Node)
  | .array items => nodesOfItems? items
  | _ => none

/-- The trees that some documents write. -/
def nodesOfItems? : List Json → Option (List Node)
  | [] => some []
  | json :: rest => do return (← ofJson? true json) :: (← nodesOfItems? rest)

end

end Node

/-- Names, which are all texts. -/
def namesOfJson? : Json → Option (List String)
  | .array items => items.mapM fun item => match item with
    | .string s => some s
    | _ => none
  | _ => none

/-- The closure that a document writes. -/
def ofJson? : Json → Option Closure
  | .object members => do
    return ⟨← namesOfJson? (← Json.member? "params" members),
      ← Node.ofJson? false (← Json.member? "body" members)⟩
  | .array [names, body] => do return ⟨← namesOfJson? names, ← Node.ofJson? false body⟩
  | _ => none

end QueryCompiler.Closure
