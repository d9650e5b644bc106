import QueryCompiler.Query.Builder

/-!
# Building a query in place

The steps of `Query.apply` as changes of one query that is kept where it is. A step that fails on
its way leaves the query as it is at that moment: what it has changed by then stays changed.
-/

namespace QueryCompiler

namespace Query

/-- A change in place, which may fail on its way. -/
abbrev Edit := ExceptT QueryError (StateM Query)

/-- Takes what was computed apart from the query, or fails with it. -/
def Edit.ofOutcome {α : Type} : Except QueryError α → Edit α
  | .ok x => pure x
  | .error e => throw e

/-- Takes the staged target away. -/
def takeTarget : Edit (Option JoinTarget) :=
  modifyGet fun q => (q.staged.target, { q with staged.target := none })

/-- The change that a step makes. -/
def edit : Step → Edit Unit
  | .select fields => modify (·.select fields)
  | .selectFrom entity => modify (·.selectFrom entity)
  | .insert entity values => do
    let values ← Edit.ofOutcome (assignments "insert" values)
    modify fun q => { q with statement := some (.insert entity values) }
  | .update entity => modify fun q => { q with statement := some (.update entity []) }
  | .set values => do
    let values ← Edit.ofOutcome (assignments "update" values)
    match (← get).statement with
    | some (.update entity _) =>
      modify fun q => { q with statement := some (.update entity values) }
    | _ => throw .noUpdate
  | .delete entity => modify fun q => { q with statement := some (.delete entity) }
  | .whereField field => do
    modify fun q => { q with filter := none }
    modify (·.stage none field)
  | .combineField connective field => modify (·.stage (some connective) field)
  | .predicate predicate => modify (·.addPredicate predicate)
  | .prepare connective => modify (·.prepare connective)
  | .join target => do
    if (← get).isSelect then modify fun q => { q with staged.target := some target }
    else throw .noSelect
  | .on condition => do
    match ← takeTarget with
    | some target => modify fun q => { q with joins := q.joins ++ [⟨target, condition, none⟩] }
    | none => throw .noJoin
  | .orderBy direction field =>
    modify fun q => { q with orders := q.orders ++ [⟨direction, [field]⟩] }
  | .thenBy direction field => do
    if !(← get).orders.isEmpty then
      modify fun q => { q with orders := q.orders ++ [⟨direction, [field]⟩] }
  | .groupBy fields => modify fun q => { q with groups := q.groups ++ fields }
  | .skip n => modify fun q => { q with skip := some n }
  | .take n => modify fun q => { q with take := some n }
  | .distinct flag => modify fun q => { q with distinct := flag }
  | .fixed flag => modify fun q => { q with fixed := flag }
  | .label name => modify fun q => { q with label := some name }

/-- What becomes of a step, and the query that it leaves behind in either case. -/
def perform (q : Query) (step : Step) : Except QueryError Unit × Query :=
  (edit step).run q

/-- What becomes of each step, and the query that they leave behind. -/
def performAll (q : Query) : List Step → List (Except QueryError Unit) × Query
  | [] => ([], q)
  | step :: rest =>
    let (outcome, next) := q.perform step
    let (outcomes, last) := performAll next rest
    (outcome :: outcomes, last)

/-- The steps that do not fail. -/
def succeeding (q : Query) : List Step → List Step
  | [] => []
  | step :: rest => match q.perform step with
    | (.ok _, next) => step :: succeeding next rest
    | (.error _, next) => succeeding next rest

end Query

end QueryCompiler
