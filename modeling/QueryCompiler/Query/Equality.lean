import QueryCompiler.Query.Basic

/-!
# Equality of queries

Two queries are equal when all their parts are, staged parts included. Literals are compared by
value, and the values of an insert or update statement without regard to their order.
-/

namespace QueryCompiler

/-- The value for a column. -/
def Assignment.find? (column : String) (values : List Assignment) : Option Operand :=
  (values.find? fun value => value.column = column).map Assignment.operand

mutual

/-- Two fields are equal. -/
def Field.equal : Field → Field → Bool
  | .name n, .name n' => n = n'
  | .qualified e n, .qualified e' n' => e = e' && n = n'
  | .labelled a e, .labelled a' e' => a = a' && e = e'
  | .aggregate a f n, .aggregate a' f' n' => a = a' && f = f' && n = n'
  | .function a f args, .function a' f' args' => a = a' && f = f' && Operand.equalAll args args'
  | .constant v a, .constant v' a' => v.equal v' && a = a'
  | _, _ => false
termination_by structural x => x

/-- Fields are equal one by one. -/
def Field.equalAll : List Field → List Field → Bool
  | [], [] => true
  | f :: fs, g :: gs => f.equal g && Field.equalAll fs gs
  | _, _ => false
termination_by structural x => x

/-- Two operands are equal. -/
def Operand.equal : Operand → Operand → Bool
  | .value v, .value v' => v.equal v'
  | .field f, .field f' => f.equal f'
  | .list items, .list items' => Operand.equalAll items items'
  | .query q, .query q' => q.equal q'
  | _, _ => false
termination_by structural x => x

/-- Operands are equal one by one. -/
def Operand.equalAll : List Operand → List Operand → Bool
  | [], [] => true
  | x :: xs, y :: ys => x.equal y && Operand.equalAll xs ys
  | _, _ => false
termination_by structural x => x

/-- Two tests are equal. -/
def Test.equal : Test → Test → Bool
  | ⟨op, x⟩, ⟨op', x'⟩ => op = op' && x.equal x'
termination_by structural x => x

/-- Tests are equal one by one. -/
def Test.equalAll : List Test → List Test → Bool
  | [], [] => true
  | x :: xs, y :: ys => x.equal y && Test.equalAll xs ys
  | _, _ => false
termination_by structural x => x

/-- Two filters are equal. -/
def Filter.equal : Filter → Filter → Bool
  | .logical c fs, .logical c' fs' => c = c' && Filter.equalAll fs fs'
  | .compare f t, .compare f' t' => f = f' && t.equal t'
  | .function f n args tests, .function f' n' args' tests' =>
    f = f' && n = n' && Operand.equalAll args args' && Test.equalAll tests tests'
  | _, _ => false
termination_by structural x => x

/-- Filters are equal one by one. -/
def Filter.equalAll : List Filter → List Filter → Bool
  | [], [] => true
  | f :: fs, g :: gs => f.equal g && Filter.equalAll fs gs
  | _, _ => false
termination_by structural x => x

/-- Two optional filters are equal. -/
def Filter.equalOption : Option Filter → Option Filter → Bool
  | none, none => true
  | some f, some g => f.equal g
  | _, _ => false
termination_by structural x => x

/-- Two entities are equal. -/
def Entity.equal : Entity → Entity → Bool
  | ⟨n, fs, a⟩, ⟨n', fs', a'⟩ => n = n' && Field.equalAll fs fs' && a = a'
termination_by structural x => x

/-- Every value stands in `others` for the same column. -/
def Assignment.within (others : List Assignment) : List Assignment → Bool
  | [] => true
  | ⟨column, operand⟩ :: rest =>
    (match Assignment.find? column others with
      | some other => operand.equal other
      | none => false) && Assignment.within others rest
termination_by structural x => x

/-- Two statements are equal. -/
def Statement.equal : Statement → Statement → Bool
  | .select e fs, .select e' fs' => e = e' && Field.equalAll fs fs'
  | .insert e vs, .insert e' vs' => e = e' && vs.length = vs'.length && Assignment.within vs' vs
  | .update e vs, .update e' vs' => e = e' && vs.length = vs'.length && Assignment.within vs' vs
  | .delete e, .delete e' => e = e'
  | _, _ => false
termination_by structural x => x

/-- Two join targets are equal. -/
def JoinTarget.equal : JoinTarget → JoinTarget → Bool
  | .entity e, .entity e' => e.equal e'
  | .query q, .query q' => q.equal q'
  | _, _ => false
termination_by structural x => x

/-- Two join conditions are equal. -/
def JoinCondition.equal : JoinCondition → JoinCondition → Bool
  | .columns sides, .columns sides' => sides = sides'
  | .filter f, .filter f' => f.equal f'
  | _, _ => false
termination_by structural x => x

/-- Two joins are equal. -/
def Join.equal : Join → Join → Bool
  | ⟨t, c, a⟩, ⟨t', c', a'⟩ => t.equal t' && c.equal c' && a = a'
termination_by structural x => x

/-- Joins are equal one by one. -/
def Join.equalAll : List Join → List Join → Bool
  | [], [] => true
  | x :: xs, y :: ys => x.equal y && Join.equalAll xs ys
  | _, _ => false
termination_by structural x => x

/-- Two orderings are equal. -/
def Order.equal : Order → Order → Bool
  | ⟨d, fs⟩, ⟨d', fs'⟩ => d = d' && Field.equalAll fs fs'
termination_by structural x => x

/-- Orderings are equal one by one. -/
def Order.equalAll : List Order → List Order → Bool
  | [], [] => true
  | x :: xs, y :: ys => x.equal y && Order.equalAll xs ys
  | _, _ => false
termination_by structural x => x

/-- The same halves wait. -/
def Staged.equal : Staged → Staged → Bool
  | ⟨f, c, fs, t⟩, ⟨f', c', fs', t'⟩ =>
    f = f' && c = c' &&
    (match fs, fs' with
      | none, none => true
      | some fs, some fs' => Field.equalAll fs fs'
      | _, _ => false) &&
    (match t, t' with
      | none, none => true
      | some t, some t' => t.equal t'
      | _, _ => false)
termination_by structural x => x

/-- Two queries are equal. -/
def Query.equal : Query → Query → Bool
  | ⟨statement, joins, filter, prepared, orders, groups, distinct, fixed, skip, take, label, staged⟩,
    q =>
    (match statement, q.statement with
      | none, none => true
      | some s, some s' => s.equal s'
      | _, _ => false) &&
    Join.equalAll joins q.joins && Filter.equalOption filter q.filter &&
    Filter.equalOption prepared q.prepared && Order.equalAll orders q.orders &&
    Field.equalAll groups q.groups && distinct = q.distinct && fixed = q.fixed &&
    skip = q.skip && take = q.take && label = q.label && staged.equal q.staged
termination_by structural x => x

end

end QueryCompiler
