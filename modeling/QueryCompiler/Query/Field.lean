import QueryCompiler.Query.Error
import QueryCompiler.Text.Joined

/-!
# Fields

Building fields from names, qualifying and renaming them. A name is split at its first point: what
stands before names the table, what stands after it the column.
-/

namespace QueryCompiler

/-- A name of ASCII letters, digits and underscores. -/
def isIdentifier (name : String) : Bool :=
  name ≠ "" && name.toList.all fun c => c.isAlphanum || c = '_'

/-- The name without the table in front of it. -/
def bareName (name : String) : String :=
  match Text.splitFirst? '.' name.toList with
  | some (_, column) => if column = [] then name else String.ofList column
  | none => name

namespace Field

/-- The column with a given name, qualified if the name says so. -/
def select (text : String) : Field :=
  match Text.splitFirst? '.' text.toList with
  | some (entity, column) =>
    if entity = [] ∨ column = [] then .name text
    else .qualified (String.ofList entity) (String.ofList column)
  | none => .name text

/-- An aggregate of a column, under the column's own name. -/
def aggregateOf (aggregate : Aggregate) (text : String) : Field :=
  .aggregate (bareName text) aggregate text

/-- A function of a column, under the column's own name. -/
def functionOf (function text : String) : Field :=
  .function (bareName text) function [.field (select text)]

/-- A constant without a name. -/
def constantOf (value : Value) : Field :=
  .constant value none

/-- The field as a column of `entity`, whatever table it named before. -/
def qualify (entity : String) : Field → Except QueryError Field
  | .name text => .ok (.qualified entity (bareName text))
  | .qualified _ text => .ok (.qualified entity (bareName text))
  | .aggregate label func text =>
    .ok (.aggregate label func (entity ++ "." ++ bareName text))
  | field => .error (.notQualifiable field entity)

/-- The field under another name. -/
def rename (label : String) : Field → Field
  | .name text => .labelled label text
  | .qualified entity text => .labelled label (entity ++ "." ++ text)
  | .labelled _ expression => .labelled label expression
  | .aggregate _ func text => .aggregate label func text
  | .function _ func args => .function label func args
  | .constant v _ => .constant v (some label)

/-- The name that was given to the field. -/
def label? : Field → Option String
  | .name _ | .qualified .. => none
  | .labelled label _ | .aggregate label .. | .function label .. => some label
  | .constant _ label => label

/-- The column's name without its table. -/
def columnName? : Field → Option String
  | .name text => some (bareName text)
  | .qualified _ text => some text
  | .labelled _ expression => some (bareName expression)
  | .aggregate _ _ text => some (bareName text)
  | .function .. | .constant .. => none

/-- The text that names the field in a filter. -/
def filterText? : Field → Option String
  | .name text => some text
  | .qualified entity text => some (entity ++ "." ++ text)
  | .labelled _ expression => some expression
  | .aggregate .. | .function .. | .constant .. => none

end Field

namespace Entity

/-- The name by which columns of the entity are qualified. -/
def referenceName (entity : Entity) : String :=
  entity.label.getD entity.name

/-- A column of the entity. -/
def select (entity : Entity) (column : String) : Field :=
  .qualified entity.referenceName (bareName column)

end Entity

namespace Operand

/-- The null literal. -/
def null : Operand := .value .null

/-- The operand is the null literal. -/
def isNull : Operand → Bool
  | .value v => v.isNull
  | _ => false

/-- The operand is a literal. -/
def isValue : Operand → Bool
  | .value _ => true
  | _ => false

end Operand

end QueryCompiler
