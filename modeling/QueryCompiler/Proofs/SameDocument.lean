import QueryCompiler.Proofs.Traversal
import QueryCompiler.Document.Writing

/-!
# Queries of one document

A query keeps its document when each of its literals is replaced by one that is written as the same
JSON (`Query.toJson_mapValues`).
-/

namespace QueryCompiler

/-- Each literal is replaced by one that is written as the same JSON. -/
def KeepsDocuments (g : Value → Value) : Prop :=
  ∀ v, (g v).toJson = v.toJson

section SameDocument

variable {g : Value → Value}

theorem lastItem_mapValues (h : KeepsDocuments g) (members : List (String × Json)) :
    ∀ tests : List Test,
      lastItem (Test.mapValuesAll g tests) members = lastItem tests members
  | [] => rfl
  | [⟨op, x⟩] => by
    rcases x with v | _ | _ | _
    · cases op
      case eq => exact h v
      all_goals rfl
    all_goals cases op <;> rfl
  | ⟨op, x⟩ :: ⟨_, _⟩ :: _ => by cases op <;> cases x <;> rfl

mutual

theorem Field.toJson_mapValues (h : KeepsDocuments g) :
    ∀ f : Field, (f.mapValues g).toJson = f.toJson
  | .name _ => rfl
  | .qualified _ _ => rfl
  | .labelled _ _ => rfl
  | .aggregate _ _ _ => rfl
  | .function _ _ args => by
    rw [Field.mapValues, Field.toJson, Field.toJson, Operand.toJsonAll_mapValues h args]
  | .constant v none => by rw [Field.mapValues, Field.toJson, Field.toJson, h v]
  | .constant v (some _) => by rw [Field.mapValues, Field.toJson, Field.toJson, h v]

theorem Field.toJsonAll_mapValues (h : KeepsDocuments g) : ∀ fs : List Field,
    Field.toJsonAll (Field.mapValuesAll g fs) = Field.toJsonAll fs
  | [] => rfl
  | f :: rest => by
    rw [Field.mapValuesAll, Field.toJsonAll, Field.toJsonAll, Field.toJson_mapValues h f,
      Field.toJsonAll_mapValues h rest]

theorem Operand.toJson_mapValues (h : KeepsDocuments g) :
    ∀ x : Operand, (x.mapValues g).toJson = x.toJson
  | .value v => h v
  | .field f => Field.toJson_mapValues h f
  | .list items => by
    rw [Operand.mapValues, Operand.toJson, Operand.toJson, Operand.toJsonAll_mapValues h items]
  | .query q => Query.toJson_mapValues h q

theorem Operand.toJsonAll_mapValues (h : KeepsDocuments g) : ∀ xs : List Operand,
    Operand.toJsonAll (Operand.mapValuesAll g xs) = Operand.toJsonAll xs
  | [] => rfl
  | x :: rest => by
    rw [Operand.mapValuesAll, Operand.toJsonAll, Operand.toJsonAll, Operand.toJson_mapValues h x,
      Operand.toJsonAll_mapValues h rest]

theorem Test.toMember_mapValues (h : KeepsDocuments g) :
    ∀ t : Test, (t.mapValues g).toMember = t.toMember
  | ⟨_, x⟩ => by
    rw [Test.mapValues, Test.toMember, Test.toMember, Operand.toJson_mapValues h x]

theorem Test.toMembers_mapValues (h : KeepsDocuments g) : ∀ ts : List Test,
    Test.toMembers (Test.mapValuesAll g ts) = Test.toMembers ts
  | [] => rfl
  | t :: rest => by
    rw [Test.mapValuesAll, Test.toMembers, Test.toMembers, Test.toMember_mapValues h t,
      Test.toMembers_mapValues h rest]

theorem Filter.toJson_mapValues (h : KeepsDocuments g) :
    ∀ f : Filter, (f.mapValues g).toJson = f.toJson
  | .logical _ operands => by
    rw [Filter.mapValues, Filter.toJson, Filter.toJson, Filter.toJsonAll_mapValues h operands]
  | .compare _ t => by
    rw [Filter.mapValues, Filter.toJson, Filter.toJson, Test.toMember_mapValues h t]
  | .function _ _ args tests => by
    rw [Filter.mapValues, Filter.toJson, Filter.toJson, Operand.toJsonAll_mapValues h args,
      Test.toMembers_mapValues h tests, lastItem_mapValues h]

theorem Filter.toJsonAll_mapValues (h : KeepsDocuments g) : ∀ fs : List Filter,
    Filter.toJsonAll (Filter.mapValuesAll g fs) = Filter.toJsonAll fs
  | [] => rfl
  | f :: rest => by
    rw [Filter.mapValuesAll, Filter.toJsonAll, Filter.toJsonAll, Filter.toJson_mapValues h f,
      Filter.toJsonAll_mapValues h rest]

theorem Filter.toMembers_mapValues (h : KeepsDocuments g) (key : String) : ∀ f : Option Filter,
    Filter.toMembers key (Filter.mapValuesOption g f) = Filter.toMembers key f
  | none => rfl
  | some f => by
    rw [Filter.mapValuesOption, Filter.toMembers, Filter.toMembers, Filter.toJson_mapValues h f]

theorem Entity.toJson_mapValues (h : KeepsDocuments g) :
    ∀ e : Entity, (e.mapValues g).toJson = e.toJson
  | ⟨_, fs, _⟩ => by
    simp only [Entity.mapValues, Entity.toJson, Field.toJsonAll_mapValues h fs]

theorem Assignment.toMembers_mapValues (h : KeepsDocuments g) : ∀ vs : List Assignment,
    Assignment.toMembers (Assignment.mapValuesAll g vs) = Assignment.toMembers vs
  | [] => rfl
  | ⟨_, x⟩ :: rest => by
    rw [Assignment.mapValuesAll, Assignment.toMembers, Assignment.toMembers,
      Operand.toJson_mapValues h x, Assignment.toMembers_mapValues h rest]

theorem Statement.toMembers_mapValues (h : KeepsDocuments g) : ∀ s : Option Statement,
    Statement.toMembers (Statement.mapValuesOption g s) = Statement.toMembers s
  | none => rfl
  | some (.select _ fs) => by
    rw [Statement.mapValuesOption, Statement.mapValues, Statement.toMembers, Statement.toMembers,
      Statement.toJson, Statement.toJson, Field.toJsonAll_mapValues h fs]
    rfl
  | some (.insert _ vs) => by
    rw [Statement.mapValuesOption, Statement.mapValues, Statement.toMembers, Statement.toMembers,
      Statement.toJson, Statement.toJson, Assignment.toMembers_mapValues h vs]
    rfl
  | some (.update _ vs) => by
    rw [Statement.mapValuesOption, Statement.mapValues, Statement.toMembers, Statement.toMembers,
      Statement.toJson, Statement.toJson, Assignment.toMembers_mapValues h vs]
    rfl
  | some (.delete _) => rfl

theorem JoinTarget.toJson_mapValues (h : KeepsDocuments g) :
    ∀ t : JoinTarget, (t.mapValues g).toJson = t.toJson
  | .entity e => Entity.toJson_mapValues h e
  | .query q => Query.toJson_mapValues h q

theorem JoinCondition.toJson_mapValues (h : KeepsDocuments g) :
    ∀ c : JoinCondition, (c.mapValues g).toJson = c.toJson
  | .columns _ => rfl
  | .filter f => Filter.toJson_mapValues h f

theorem Join.toJsonAll_mapValues (h : KeepsDocuments g) : ∀ js : List Join,
    Join.toJsonAll (Join.mapValuesAll g js) = Join.toJsonAll js
  | [] => rfl
  | ⟨t, c, _⟩ :: rest => by
    rw [Join.mapValuesAll, Join.mapValues, Join.toJsonAll, Join.toJsonAll, Join.toJson, Join.toJson,
      JoinTarget.toJson_mapValues h t, JoinCondition.toJson_mapValues h c,
      Join.toJsonAll_mapValues h rest]

theorem Order.toJsonAll_mapValues (h : KeepsDocuments g) : ∀ os : List Order,
    Order.toJsonAll (Order.mapValuesAll g os) = Order.toJsonAll os
  | [] => rfl
  | ⟨_, fs⟩ :: rest => by
    rw [Order.mapValuesAll, Order.toJsonAll, Order.toJsonAll, Order.toJson, Order.toJson,
      Field.toJsonAll_mapValues h fs, Order.toJsonAll_mapValues h rest]

/-- Replacing literals by ones that are written alike leaves the document as it is. -/
theorem Query.toJson_mapValues (h : KeepsDocuments g) :
    ∀ q : Query, (q.mapValues g).toJson = q.toJson
  | ⟨statement, joins, filter, prepared, orders, groups, _, _, _, _, _, _⟩ => by
    rw [Query.mapValues, Query.toJson, Query.toJson, Statement.toMembers_mapValues h statement,
      Join.toJsonAll_mapValues h joins, Filter.toMembers_mapValues h _ filter,
      Filter.toMembers_mapValues h _ prepared, Order.toJsonAll_mapValues h orders,
      Field.toJsonAll_mapValues h groups]

end

end SameDocument

end QueryCompiler
