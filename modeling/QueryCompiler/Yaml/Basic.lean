import QueryCompiler.Yaml.Scalar
import QueryCompiler.Yaml.Tag

/-!
# YAML values

What a document says, with the anchors and tags of its parts. A part may be named and stand again
wherever its name does, inside itself too, so that the names are kept in the value. They are texts
as they are read, and numbers once it is known which part each name stands for.
-/

namespace QueryCompiler

namespace Yaml

/-- What may stand in front of a value. -/
structure Properties (α : Type) where
  anchor : Option α := none
  tag : Option Tag := none
deriving DecidableEq

end Yaml

/-- A YAML value whose names are of type `α`. -/
inductive Yaml (α : Type)
  /-- The value that a name stands for. -/
  | aliasTo (name : α)
  | scalar (properties : Yaml.Properties α) (style : Yaml.Style) (text : String)
  | sequence (properties : Yaml.Properties α) (items : List (Yaml α))
  | mapping (properties : Yaml.Properties α) (entries : List (Yaml α × Yaml α))

namespace Yaml

variable {α : Type}

/-- What stands where nothing was written. -/
def absent (properties : Properties α) : Yaml α :=
  .scalar properties .plain ""

/-- The name that is given to a value. -/
def anchor? : Yaml α → Option α
  | aliasTo _ => none
  | scalar properties .. | sequence properties _ | mapping properties _ => properties.anchor

mutual

/-- The value and all its parts, in the order in which they begin. -/
def parts (y : Yaml α) : List (Yaml α) :=
  y :: match y with
    | aliasTo _ | scalar .. => []
    | sequence _ items => partsOfItems items
    | mapping _ entries => partsOfEntries entries

/-- The parts of items. -/
def partsOfItems : List (Yaml α) → List (Yaml α)
  | [] => []
  | item :: items => parts item ++ partsOfItems items

/-- The parts of entries. -/
def partsOfEntries : List (Yaml α × Yaml α) → List (Yaml α)
  | [] => []
  | (key, value) :: entries => parts key ++ parts value ++ partsOfEntries entries

end

end Yaml

end QueryCompiler
