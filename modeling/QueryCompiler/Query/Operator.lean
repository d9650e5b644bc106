/-!
# Operators

The comparisons, connectives, aggregates and directions of a query, each with the reserved key
that names it in a document.
-/

namespace QueryCompiler

/-- How a column or a function's result is compared. -/
inductive ComparisonOp
  | eq
  | ne
  | gt
  | gte
  | lt
  | lte
  | isIn
  | notIn
deriving DecidableEq

namespace ComparisonOp

/-- All comparisons. -/
def all : List ComparisonOp := [eq, ne, gt, gte, lt, lte, isIn, notIn]

/-- The reserved key. -/
def key : ComparisonOp → String
  | eq => "$eq"
  | ne => "$ne"
  | gt => "$gt"
  | gte => "$gte"
  | lt => "$lt"
  | lte => "$lte"
  | isIn => "$in"
  | notIn => "$nin"

/-- The comparison with a given key. -/
def ofKey? (key : String) : Option ComparisonOp :=
  all.find? fun op => op.key = key

/-- The comparison that holds after its two sides have changed places. -/
def flip : ComparisonOp → ComparisonOp
  | gt => lt
  | gte => lte
  | lt => gt
  | lte => gte
  | op => op

theorem ofKey?_key (op : ComparisonOp) : ofKey? op.key = some op := by
  cases op <;> decide

theorem flip_flip (op : ComparisonOp) : op.flip.flip = op := by
  cases op <;> rfl

end ComparisonOp

/-- How filters are combined. -/
inductive Connective
  | and
  | or
deriving DecidableEq

namespace Connective

/-- The reserved key. -/
def key : Connective → String
  | and => "$and"
  | or => "$or"

/-- The connective with a given key. -/
def ofKey? (key : String) : Option Connective :=
  if key = "$and" then some and
  else if key = "$or" then some or
  else none

/-- The text between two conditions of a statement. -/
def separator : Connective → String
  | and => " AND "
  | or => " OR "

theorem ofKey?_key (op : Connective) : ofKey? op.key = some op := by
  cases op <;> decide

end Connective

/-- A function over the rows of a group. -/
inductive Aggregate
  | count
  | min
  | max
  | avg
  | sum
deriving DecidableEq

namespace Aggregate

/-- All aggregates. -/
def all : List Aggregate := [count, min, max, avg, sum]

/-- The reserved key. -/
def key : Aggregate → String
  | count => "$count"
  | min => "$min"
  | max => "$max"
  | avg => "$avg"
  | sum => "$sum"

/-- The aggregate with a given key. -/
def ofKey? (key : String) : Option Aggregate :=
  all.find? fun aggregate => aggregate.key = key

/-- The function's name in a statement. -/
def sqlName : Aggregate → String
  | count => "COUNT"
  | min => "MIN"
  | max => "MAX"
  | avg => "AVG"
  | sum => "SUM"

theorem ofKey?_key (aggregate : Aggregate) : ofKey? aggregate.key = some aggregate := by
  cases aggregate <;> decide

end Aggregate

/-- The direction of an ordering. -/
inductive Direction
  | ascending
  | descending
deriving DecidableEq

namespace Direction

/-- The reserved key. -/
def key : Direction → String
  | ascending => "$asc"
  | descending => "$desc"

/-- The direction with a given key. -/
def ofKey? (key : String) : Option Direction :=
  if key = "$asc" then some ascending
  else if key = "$desc" then some descending
  else none

/-- The word in a statement. -/
def sqlWord : Direction → String
  | ascending => "ASC"
  | descending => "DESC"

theorem ofKey?_key (direction : Direction) : ofKey? direction.key = some direction := by
  cases direction <;> decide

end Direction

end QueryCompiler
