import QueryCompiler.Json.Basic

/-!
# Closures

A closure has parameters and an expression over them. The expression is a tree, in which a literal
keeps the text by which it was written.
-/

namespace QueryCompiler.Closure

/-- An expression. A tree that was not read from a closure's text may lack operands. -/
inductive Node
  | logical (operator : String) (left right : Option Node)
  | binary (operator : String) (left right : Option Node)
  /-- The operator stands in front of its operand if it leads. -/
  | unary (operator : String) (operand : Node) (leads : Bool)
  /-- A property of an object. It is computed if it stands between brackets. -/
  | member (computed : Bool) (object property : Node)
  | call (callee : Node) (arguments : List Node)
  | literal (value : Json) (raw : String)
  | identifier (name : String)
deriving Inhabited

/-- The kinds of expressions. -/
inductive NodeKind
  | logical
  | binary
  | unary
  | member
  | call
  | literal
  | identifier
deriving DecidableEq

namespace NodeKind

/-- All kinds. -/
def all : List NodeKind := [logical, binary, unary, member, call, literal, identifier]

/-- The kind's name. -/
def name : NodeKind → String
  | logical => "LogicalExpression"
  | binary => "BinaryExpression"
  | unary => "UnaryExpression"
  | member => "MemberExpression"
  | call => "CallExpression"
  | literal => "Literal"
  | identifier => "Identifier"

/-- The kind with a given name. -/
def ofName? (name : String) : Option NodeKind :=
  all.find? fun kind => kind.name = name

theorem ofName?_name (kind : NodeKind) : ofName? kind.name = some kind := by
  cases kind <;> decide

end NodeKind

namespace Node

/-- The kind of an expression. -/
def kind : Node → NodeKind
  | logical .. => .logical
  | binary .. => .binary
  | unary .. => .unary
  | member .. => .member
  | call .. => .call
  | literal .. => .literal
  | identifier _ => .identifier

end Node

end QueryCompiler.Closure

namespace QueryCompiler

/-- A function of its parameters. -/
structure Closure where
  parameters : List String
  body : Closure.Node
deriving Inhabited

end QueryCompiler
