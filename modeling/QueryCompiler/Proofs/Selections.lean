import QueryCompiler.Proofs.Outcome
import QueryCompiler.Query.Builder

/-!
# Selecting and naming the table

Fields may be selected before there is a table to select them from. They wait for it then, in a
query that does not select yet: where one does, nothing waits (`Query.Settled`), and every step
keeps it so (`Query.Settled.step`). So it does not matter which of the two is said first, whatever
else has been said before (`Query.run_select_selectFrom`).
-/

namespace QueryCompiler

namespace Query

variable {q next : Query} {entity : String} {fields : List Field}

/-- No fields wait for a table in a query that selects from one. -/
def Settled (q : Query) : Prop :=
  q.isSelect = true → q.staged.fields = none

theorem isSelect_of_statement (h : q.statement = some (.select entity fields)) :
    q.isSelect = true := by
  rw [isSelect, selectedFields?, h]
  rfl

theorem Settled.of_other (h : ∀ entity fields, q.statement ≠ some (.select entity fields)) :
    q.Settled := by
  intro hselect
  rw [isSelect, selectedFields?] at hselect
  split at hselect
  · rename_i entity fields hstatement
    exact absurd hstatement (h entity fields)
  · cases hselect

/-- What neither changes the statement nor the fields that wait for a table changes nothing. -/
theorem Settled.of_eq (h : q.Settled) (hstatement : next.statement = q.statement)
    (hfields : next.staged.fields = q.staged.fields) : next.Settled := by
  intro hselect
  rw [isSelect, selectedFields?, hstatement] at hselect
  rw [hfields]
  exact h hselect

theorem Settled.select (h : q.Settled) (fields : List Field) : (q.select fields).Settled := by
  unfold Query.select
  split
  · rename_i hstatement
    exact fun _ => h (isSelect_of_statement hstatement)
  · exact .of_other (by simp)

theorem Settled.selectFrom (h : q.Settled) (entity : String) : (q.selectFrom entity).Settled := by
  unfold Query.selectFrom
  split
  · rename_i hstatement
    exact fun _ => h (isSelect_of_statement hstatement)
  · exact fun _ => rfl

theorem Settled.addPredicate (h : q.Settled) (predicate : Predicate) :
    (q.addPredicate predicate).Settled := by
  unfold Query.addPredicate
  split
  · exact h
  · exact h.of_eq rfl rfl

theorem Settled.prepare (h : q.Settled) (connective : Connective) :
    (q.prepare connective).Settled := by
  unfold Query.prepare
  split
  · exact h
  · exact h.of_eq rfl rfl

theorem Settled.apply {step : Step} (h : q.Settled) (happly : q.apply step = .ok next) :
    next.Settled := by
  -- Six steps change the statement or the waiting fields; the others leave both as they are.
  cases step with
  | select fields =>
    cases happly
    exact h.select fields
  | selectFrom entity =>
    cases happly
    exact h.selectFrom entity
  | insert entity values =>
    obtain ⟨values, -, happly⟩ := exists_of_bind_eq_ok happly
    cases happly
    exact .of_other (by simp)
  | set values =>
    obtain ⟨values, -, happly⟩ := exists_of_bind_eq_ok happly
    unfold setValues at happly
    split at happly
    · cases happly
      exact .of_other (by simp)
    · cases happly
  | update | delete =>
    cases happly
    exact .of_other (by simp)
  | predicate predicate =>
    cases happly
    exact h.addPredicate predicate
  | prepare connective =>
    cases happly
    exact h.prepare connective
  | join target =>
    simp only [Query.apply] at happly
    split at happly
    · cases happly
      exact h.of_eq rfl rfl
    · cases happly
  | on condition =>
    simp only [Query.apply] at happly
    split at happly
    · cases happly
      exact h.of_eq rfl rfl
    · cases happly
  | thenBy direction field =>
    cases happly
    split
    · exact h
    · exact h.of_eq rfl rfl
  | whereField | combineField | orderBy | groupBy | skip | take | distinct | fixed | label =>
    cases happly
    exact h.of_eq rfl rfl

/-- A step leaves nothing waiting in a query that selects, also one that fails. -/
theorem Settled.step (h : q.Settled) (step : Step) : (q.applyOrKeep step).Settled := by
  unfold applyOrKeep
  split
  · rename_i next happly
    exact h.apply happly
  · exact h

theorem Settled.run (h : q.Settled) (steps : List Step) : (q.run steps).Settled := by
  induction steps generalizing q with
  | nil => exact h
  | cons step steps ih => exact ih (h.step step)

theorem settled_run (steps : List Step) : ((∅ : Query).run steps).Settled :=
  Settled.run (fun _ => rfl) steps

/-- The query selects the fields from the table, and is otherwise what it was. -/
def selecting (q : Query) (entity : String) (fields : List Field) : Query :=
  { q with statement := some (.select entity fields), staged.fields := none }

theorem selecting_of_fields (h : q.staged.fields = none) (entity : String)
    (fields : List Field) :
    { q with statement := some (.select entity fields) } = q.selecting entity fields := by
  -- Queries and what is staged in them are defined together with fields, so that a record of them
  -- is only equal to itself put together anew once it has been taken apart.
  rcases q with ⟨_, _, _, _, _, _, _, _, _, _, _, ⟨_, _, _, _⟩⟩
  cases h
  rfl

theorem Settled.selectFrom_select (h : q.Settled) (fields : List Field) (entity : String) :
    (q.select fields).selectFrom entity = q.selecting entity fields := by
  unfold Query.select
  split
  · rename_i hstatement
    exact selecting_of_fields (h (isSelect_of_statement hstatement)) entity fields
  · rfl

theorem Settled.select_selectFrom (h : q.Settled) (fields : List Field) (entity : String) :
    (q.selectFrom entity).select fields = q.selecting entity fields := by
  unfold Query.selectFrom
  split
  · rename_i hstatement
    exact selecting_of_fields (h (isSelect_of_statement hstatement)) entity fields
  · rfl

/-- After any steps, selecting fields and then naming the table makes the same query as naming the
table and then selecting the fields. It selects these fields from this table, no fields wait in it,
and nothing else has changed. Whenever a query that was built selects, no fields wait in it. -/
theorem run_select_selectFrom (steps : List Step) (fields : List Field) (entity : String) :
    ((∅ : Query).run steps).run [.select fields, .selectFrom entity]
        = ((∅ : Query).run steps).run [.selectFrom entity, .select fields] ∧
      ((∅ : Query).run steps).run [.select fields, .selectFrom entity]
        = { (∅ : Query).run steps with
            statement := some (.select entity fields), staged.fields := none } ∧
      (((∅ : Query).run steps).isSelect = true → ((∅ : Query).run steps).staged.fields = none) := by
  have hsettled := settled_run steps
  have hfirst := hsettled.selectFrom_select fields entity
  have hsecond := hsettled.select_selectFrom fields entity
  exact ⟨hfirst.trans hsecond.symm, hfirst, hsettled⟩

/-- Fields that wait while the query deletes, and are then selected from another table. -/
def laterOrders : List Step :=
  [.select [.name "id"], .delete "drafts", .selectFrom "orders"]

theorem run_select_selectFrom_laterOrders :
    ((∅ : Query).run laterOrders).statement = some (.select "orders" [.name "id"]) ∧
    ((∅ : Query).run laterOrders).staged.fields = none ∧
    ((∅ : Query).run laterOrders).run [.select [.name "total"], .selectFrom "bills"]
      = ((∅ : Query).run laterOrders).run [.selectFrom "bills", .select [.name "total"]] := by
  obtain ⟨hsame, -, hsettled⟩ := run_select_selectFrom laterOrders [.name "total"] "bills"
  exact ⟨rfl, hsettled rfl, hsame⟩

end Query

end QueryCompiler
