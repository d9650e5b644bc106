import QueryCompiler.Query.Editing

/-!
# Failed steps leave no trace

A step that fails in place has not changed the query (`Query.perform_eq`): what it needs is checked
before its first change, and the one change that comes before a check, taking the staged target
away, changes nothing where the check fails. So a run of steps leaves the same query behind as the
run of those that succeed (`Query.performAll_succeeding`).
-/

namespace QueryCompiler

namespace Query

/-- What a step in place leaves behind: the next query if it succeeds, and the same one if not. -/
theorem perform_eq (q : Query) (step : Step) :
    q.perform step = match q.apply step with
      | .ok next => (.ok (), next)
      | .error e => (.error e, q) := by
  cases step with
  | insert entity values =>
    simp only [apply]
    cases hvalues : assignments "insert" values with
    | error e => simp only [perform, edit, hvalues]; rfl
    | ok values => simp only [perform, edit, hvalues]; rfl
  | set values =>
    simp only [apply]
    cases hvalues : assignments "update" values with
    | error e => simp only [perform, edit, hvalues]; rfl
    | ok values =>
      simp only [perform, edit, hvalues]
      rcases q with ⟨_ | _ | _ | _ | _, _, _, _, _, _, _, _, _, _, _, _⟩
      all_goals rfl
  | join target =>
    rcases q with ⟨_ | _ | _ | _ | _, _, _, _, _, _, _, _, _, _, _, _⟩
    all_goals rfl
  | on condition =>
    rcases q with ⟨_, _, _, _, _, _, _, _, _, _, _, ⟨_, _, _, _ | _⟩⟩
    all_goals rfl
  | thenBy direction field =>
    rcases q with ⟨_, _, _, _, _ | _, _, _, _, _, _, _, _⟩
    all_goals rfl
  | _ => rfl

theorem perform_of_ok {q next : Query} {step : Step} (h : q.apply step = .ok next) :
    q.perform step = (.ok (), next) := by
  rw [perform_eq, h]

theorem perform_of_error {q : Query} {step : Step} {e : QueryError} (h : q.apply step = .error e) :
    q.perform step = (.error e, q) := by
  rw [perform_eq, h]

theorem performAll_snd : ∀ (q : Query) (steps : List Step),
    (q.performAll steps).2 = q.run steps
  | _, [] => rfl
  | q, step :: rest => by
    rw [run, List.foldl_cons, ← run, ← performAll_snd _ rest]
    cases h : q.apply step with
    | ok next => simp only [performAll, perform_of_ok h, applyOrKeep, h]
    | error e => simp only [performAll, perform_of_error h, applyOrKeep, h]

/-- Whichever steps of a run fail, the others by themselves all succeed and leave the same query
behind, and this is the query that the whole run gives. -/
theorem performAll_succeeding (q : Query) (steps : List Step) :
    q.performAll (q.succeeding steps)
      = ((q.succeeding steps).map fun _ => .ok (), (q.performAll steps).2) ∧
    (q.performAll steps).2 = q.run steps := by
  refine ⟨?_, performAll_snd q steps⟩
  induction steps generalizing q with
  | nil => rfl
  | cons step rest ih =>
    cases h : q.apply step with
    | ok next =>
      have hrest := ih next
      simp only [succeeding, performAll, perform_of_ok h, List.map_cons, hrest]
    | error e =>
      have hrest := ih q
      simp only [succeeding, performAll, perform_of_error h, hrest]

end Query

end QueryCompiler
