import Mathlib
import QueryCompiler.Query.Field
import QueryCompiler.Query.Filter

/-!
# What holds everywhere in a query

A `Law` says what each kind of part has to be like by itself. A query obeys it (`Query.Obeys`) if
every part does, however deep it stands: in operands, arguments, joins, sub-queries and staged
parts.

`Query.mapValues` replaces every literal. It changes nothing where each literal is replaced by
itself (`Query.mapValues_eq_self`).
-/

namespace QueryCompiler

/-- What the parts of a query have to be like, each by itself. -/
structure Law where
  value : Value → Prop := fun _ => True
  field : Field → Prop := fun _ => True
  operand : Operand → Prop := fun _ => True
  filter : Filter → Prop := fun _ => True
  /-- A joined table. -/
  entity : Entity → Prop := fun _ => True
  /-- The name of a column that is given a value. -/
  column : String → Prop := fun _ => True
  statement : Statement → Prop := fun _ => True
  target : JoinTarget → Prop := fun _ => True
  side : JoinSide → Prop := fun _ => True
  join : Join → Prop := fun _ => True
  query : Query → Prop := fun _ => True

/-- Each part that is as `M` asks is also as `L` asks. -/
structure Law.Weaker (L M : Law) : Prop where
  value : ∀ v, M.value v → L.value v
  field : ∀ f, M.field f → L.field f
  operand : ∀ x, M.operand x → L.operand x
  filter : ∀ f, M.filter f → L.filter f
  entity : ∀ e, M.entity e → L.entity e
  column : ∀ c, M.column c → L.column c
  statement : ∀ s, M.statement s → L.statement s
  target : ∀ t, M.target t → L.target t
  side : ∀ s, M.side s → L.side s
  join : ∀ j, M.join j → L.join j
  query : ∀ q, M.query q → L.query q

mutual

def Field.Obeys (L : Law) : Field → Prop
  | .name name => L.field (.name name)
  | .qualified entity name => L.field (.qualified entity name)
  | .labelled label expression => L.field (.labelled label expression)
  | .aggregate label func name => L.field (.aggregate label func name)
  | .function label func args => L.field (.function label func args) ∧ Operand.AllObey L args
  | .constant v label => L.field (.constant v label) ∧ L.value v

def Field.AllObey (L : Law) : List Field → Prop
  | [] => True
  | f :: rest => f.Obeys L ∧ Field.AllObey L rest

def Operand.Obeys (L : Law) : Operand → Prop
  | .value v => L.operand (.value v) ∧ L.value v
  | .field f => L.operand (.field f) ∧ f.Obeys L
  | .list items => L.operand (.list items) ∧ Operand.AllObey L items
  | .query q => L.operand (.query q) ∧ q.Obeys L

def Operand.AllObey (L : Law) : List Operand → Prop
  | [] => True
  | x :: rest => x.Obeys L ∧ Operand.AllObey L rest

def Test.Obeys (L : Law) : Test → Prop
  | ⟨_, x⟩ => x.Obeys L

def Test.AllObey (L : Law) : List Test → Prop
  | [] => True
  | t :: rest => t.Obeys L ∧ Test.AllObey L rest

def Filter.Obeys (L : Law) : Filter → Prop
  | .logical connective operands =>
    L.filter (.logical connective operands) ∧ Filter.AllObey L operands
  | .compare field t => L.filter (.compare field t) ∧ t.Obeys L
  | .function field func args tests =>
    L.filter (.function field func args tests) ∧ Operand.AllObey L args ∧ Test.AllObey L tests

def Filter.AllObey (L : Law) : List Filter → Prop
  | [] => True
  | f :: rest => f.Obeys L ∧ Filter.AllObey L rest

def Filter.OptionObeys (L : Law) : Option Filter → Prop
  | none => True
  | some f => f.Obeys L

def Entity.Obeys (L : Law) : Entity → Prop
  | ⟨name, fields, label⟩ => L.entity ⟨name, fields, label⟩ ∧ Field.AllObey L fields

def Assignment.AllObey (L : Law) : List Assignment → Prop
  | [] => True
  | ⟨column, x⟩ :: rest => (L.column column ∧ x.Obeys L) ∧ Assignment.AllObey L rest

def Statement.Obeys (L : Law) : Statement → Prop
  | .select entity fields => L.statement (.select entity fields) ∧ Field.AllObey L fields
  | .insert entity values => L.statement (.insert entity values) ∧ Assignment.AllObey L values
  | .update entity values => L.statement (.update entity values) ∧ Assignment.AllObey L values
  | .delete entity => L.statement (.delete entity)

def JoinTarget.Obeys (L : Law) : JoinTarget → Prop
  | .entity e => L.target (.entity e) ∧ e.Obeys L
  | .query q => L.target (.query q) ∧ q.Obeys L

def JoinCondition.Obeys (L : Law) : JoinCondition → Prop
  | .columns sides => ∀ s ∈ sides, L.side s
  | .filter f => f.Obeys L

def Join.AllObey (L : Law) : List Join → Prop
  | [] => True
  | ⟨target, condition, label⟩ :: rest =>
    (L.join ⟨target, condition, label⟩ ∧ target.Obeys L ∧ condition.Obeys L) ∧ Join.AllObey L rest

def Order.AllObey (L : Law) : List Order → Prop
  | [] => True
  | ⟨_, fields⟩ :: rest => Field.AllObey L fields ∧ Order.AllObey L rest

def Statement.OptionObeys (L : Law) : Option Statement → Prop
  | none => True
  | some s => s.Obeys L

def Field.OptionObey (L : Law) : Option (List Field) → Prop
  | none => True
  | some fs => Field.AllObey L fs

def JoinTarget.OptionObeys (L : Law) : Option JoinTarget → Prop
  | none => True
  | some t => t.Obeys L

def Staged.Obeys (L : Law) : Staged → Prop
  | ⟨_, _, fields, target⟩ => Field.OptionObey L fields ∧ JoinTarget.OptionObeys L target

/-- The query and all its parts obey the law. -/
def Query.Obeys (L : Law) : Query → Prop
  | ⟨statement, joins, filter, prepared, orders, groups, distinct, fixed, skip, take, label,
      staged⟩ =>
    L.query ⟨statement, joins, filter, prepared, orders, groups, distinct, fixed, skip, take, label,
      staged⟩ ∧ Statement.OptionObeys L statement ∧ Join.AllObey L joins ∧
      Filter.OptionObeys L filter ∧ Filter.OptionObeys L prepared ∧ Order.AllObey L orders ∧
      Field.AllObey L groups ∧ staged.Obeys L

end

theorem Query.obeys_iff {L : Law} {q : Query} : q.Obeys L ↔ L.query q ∧
    Statement.OptionObeys L q.statement ∧ Join.AllObey L q.joins ∧ Filter.OptionObeys L q.filter ∧
      Filter.OptionObeys L q.prepared ∧ Order.AllObey L q.orders ∧ Field.AllObey L q.groups ∧
        q.staged.Obeys L := by
  rcases q with ⟨_, _, _, _, _, _, _, _, _, _, _, _⟩
  rfl

mutual

def Field.mapValues (g : Value → Value) : Field → Field
  | .name name => .name name
  | .qualified entity name => .qualified entity name
  | .labelled label expression => .labelled label expression
  | .aggregate label func name => .aggregate label func name
  | .function label func args => .function label func (Operand.mapValuesAll g args)
  | .constant v label => .constant (g v) label

def Field.mapValuesAll (g : Value → Value) : List Field → List Field
  | [] => []
  | f :: rest => f.mapValues g :: Field.mapValuesAll g rest

def Operand.mapValues (g : Value → Value) : Operand → Operand
  | .value v => .value (g v)
  | .field f => .field (f.mapValues g)
  | .list items => .list (Operand.mapValuesAll g items)
  | .query q => .query (q.mapValues g)

def Operand.mapValuesAll (g : Value → Value) : List Operand → List Operand
  | [] => []
  | x :: rest => x.mapValues g :: Operand.mapValuesAll g rest

def Test.mapValues (g : Value → Value) : Test → Test
  | ⟨op, x⟩ => ⟨op, x.mapValues g⟩

def Test.mapValuesAll (g : Value → Value) : List Test → List Test
  | [] => []
  | t :: rest => t.mapValues g :: Test.mapValuesAll g rest

def Filter.mapValues (g : Value → Value) : Filter → Filter
  | .logical connective operands => .logical connective (Filter.mapValuesAll g operands)
  | .compare field t => .compare field (t.mapValues g)
  | .function field func args tests =>
    .function field func (Operand.mapValuesAll g args) (Test.mapValuesAll g tests)

def Filter.mapValuesAll (g : Value → Value) : List Filter → List Filter
  | [] => []
  | f :: rest => f.mapValues g :: Filter.mapValuesAll g rest

def Filter.mapValuesOption (g : Value → Value) : Option Filter → Option Filter
  | none => none
  | some f => some (f.mapValues g)

def Entity.mapValues (g : Value → Value) : Entity → Entity
  | ⟨name, fields, label⟩ => ⟨name, Field.mapValuesAll g fields, label⟩

def Assignment.mapValuesAll (g : Value → Value) : List Assignment → List Assignment
  | [] => []
  | ⟨column, x⟩ :: rest => ⟨column, x.mapValues g⟩ :: Assignment.mapValuesAll g rest

def Statement.mapValues (g : Value → Value) : Statement → Statement
  | .select entity fields => .select entity (Field.mapValuesAll g fields)
  | .insert entity values => .insert entity (Assignment.mapValuesAll g values)
  | .update entity values => .update entity (Assignment.mapValuesAll g values)
  | .delete entity => .delete entity

def Statement.mapValuesOption (g : Value → Value) : Option Statement → Option Statement
  | none => none
  | some s => some (s.mapValues g)

def JoinTarget.mapValues (g : Value → Value) : JoinTarget → JoinTarget
  | .entity e => .entity (e.mapValues g)
  | .query q => .query (q.mapValues g)

def JoinCondition.mapValues (g : Value → Value) : JoinCondition → JoinCondition
  | .columns sides => .columns sides
  | .filter f => .filter (f.mapValues g)

def Join.mapValues (g : Value → Value) : Join → Join
  | ⟨target, condition, label⟩ => ⟨target.mapValues g, condition.mapValues g, label⟩

def Join.mapValuesAll (g : Value → Value) : List Join → List Join
  | [] => []
  | j :: rest => j.mapValues g :: Join.mapValuesAll g rest

def Order.mapValuesAll (g : Value → Value) : List Order → List Order
  | [] => []
  | ⟨direction, fields⟩ :: rest =>
    ⟨direction, Field.mapValuesAll g fields⟩ :: Order.mapValuesAll g rest

def Field.mapValuesOption (g : Value → Value) : Option (List Field) → Option (List Field)
  | none => none
  | some fs => some (Field.mapValuesAll g fs)

def JoinTarget.mapValuesOption (g : Value → Value) : Option JoinTarget → Option JoinTarget
  | none => none
  | some t => some (t.mapValues g)

def Staged.mapValues (g : Value → Value) : Staged → Staged
  | ⟨field, connective, fields, target⟩ =>
    ⟨field, connective, Field.mapValuesOption g fields, JoinTarget.mapValuesOption g target⟩

/-- The query with every literal replaced. -/
def Query.mapValues (g : Value → Value) : Query → Query
  | ⟨statement, joins, filter, prepared, orders, groups, distinct, fixed, skip, take, label,
      staged⟩ =>
    ⟨Statement.mapValuesOption g statement, Join.mapValuesAll g joins,
      Filter.mapValuesOption g filter, Filter.mapValuesOption g prepared,
      Order.mapValuesAll g orders, Field.mapValuesAll g groups, distinct, fixed, skip, take, label,
      staged.mapValues g⟩

end

section Mono

variable {L M : Law}

mutual

theorem Field.Obeys.mono (h : L.Weaker M) : ∀ {f : Field}, f.Obeys M → f.Obeys L
  | .name _, hf => h.field _ hf
  | .qualified _ _, hf => h.field _ hf
  | .labelled _ _, hf => h.field _ hf
  | .aggregate _ _ _, hf => h.field _ hf
  | .function _ _ _, hf => ⟨h.field _ hf.1, Operand.AllObey.mono h hf.2⟩
  | .constant _ _, hf => ⟨h.field _ hf.1, h.value _ hf.2⟩

theorem Field.AllObey.mono (h : L.Weaker M) :
    ∀ {fs : List Field}, Field.AllObey M fs → Field.AllObey L fs
  | [], _ => trivial
  | _ :: _, hfs => ⟨Field.Obeys.mono h hfs.1, Field.AllObey.mono h hfs.2⟩

theorem Operand.Obeys.mono (h : L.Weaker M) : ∀ {x : Operand}, x.Obeys M → x.Obeys L
  | .value _, hx => ⟨h.operand _ hx.1, h.value _ hx.2⟩
  | .field _, hx => ⟨h.operand _ hx.1, Field.Obeys.mono h hx.2⟩
  | .list _, hx => ⟨h.operand _ hx.1, Operand.AllObey.mono h hx.2⟩
  | .query _, hx => ⟨h.operand _ hx.1, Query.Obeys.mono h hx.2⟩

theorem Operand.AllObey.mono (h : L.Weaker M) :
    ∀ {xs : List Operand}, Operand.AllObey M xs → Operand.AllObey L xs
  | [], _ => trivial
  | _ :: _, hxs => ⟨Operand.Obeys.mono h hxs.1, Operand.AllObey.mono h hxs.2⟩

theorem Test.Obeys.mono (h : L.Weaker M) : ∀ {t : Test}, t.Obeys M → t.Obeys L
  | ⟨_, _⟩, ht => Operand.Obeys.mono h ht

theorem Test.AllObey.mono (h : L.Weaker M) :
    ∀ {ts : List Test}, Test.AllObey M ts → Test.AllObey L ts
  | [], _ => trivial
  | _ :: _, hts => ⟨Test.Obeys.mono h hts.1, Test.AllObey.mono h hts.2⟩

theorem Filter.Obeys.mono (h : L.Weaker M) : ∀ {f : Filter}, f.Obeys M → f.Obeys L
  | .logical _ _, hf => ⟨h.filter _ hf.1, Filter.AllObey.mono h hf.2⟩
  | .compare _ _, hf => ⟨h.filter _ hf.1, Test.Obeys.mono h hf.2⟩
  | .function _ _ _ _, hf =>
    ⟨h.filter _ hf.1, Operand.AllObey.mono h hf.2.1, Test.AllObey.mono h hf.2.2⟩

theorem Filter.AllObey.mono (h : L.Weaker M) :
    ∀ {fs : List Filter}, Filter.AllObey M fs → Filter.AllObey L fs
  | [], _ => trivial
  | _ :: _, hfs => ⟨Filter.Obeys.mono h hfs.1, Filter.AllObey.mono h hfs.2⟩

theorem Filter.OptionObeys.mono (h : L.Weaker M) :
    ∀ {f : Option Filter}, Filter.OptionObeys M f → Filter.OptionObeys L f
  | none, _ => trivial
  | some _, hf => Filter.Obeys.mono h hf

theorem Entity.Obeys.mono (h : L.Weaker M) : ∀ {e : Entity}, e.Obeys M → e.Obeys L
  | ⟨_, _, _⟩, he => ⟨h.entity _ he.1, Field.AllObey.mono h he.2⟩

theorem Assignment.AllObey.mono (h : L.Weaker M) :
    ∀ {vs : List Assignment}, Assignment.AllObey M vs → Assignment.AllObey L vs
  | [], _ => trivial
  | ⟨_, _⟩ :: _, hvs =>
    ⟨⟨h.column _ hvs.1.1, Operand.Obeys.mono h hvs.1.2⟩, Assignment.AllObey.mono h hvs.2⟩

theorem Statement.Obeys.mono (h : L.Weaker M) : ∀ {s : Statement}, s.Obeys M → s.Obeys L
  | .select _ _, hs => ⟨h.statement _ hs.1, Field.AllObey.mono h hs.2⟩
  | .insert _ _, hs => ⟨h.statement _ hs.1, Assignment.AllObey.mono h hs.2⟩
  | .update _ _, hs => ⟨h.statement _ hs.1, Assignment.AllObey.mono h hs.2⟩
  | .delete _, hs => h.statement _ hs

theorem Statement.OptionObeys.mono (h : L.Weaker M) :
    ∀ {s : Option Statement}, Statement.OptionObeys M s → Statement.OptionObeys L s
  | none, _ => trivial
  | some _, hs => Statement.Obeys.mono h hs

theorem JoinTarget.Obeys.mono (h : L.Weaker M) : ∀ {t : JoinTarget}, t.Obeys M → t.Obeys L
  | .entity _, ht => ⟨h.target _ ht.1, Entity.Obeys.mono h ht.2⟩
  | .query _, ht => ⟨h.target _ ht.1, Query.Obeys.mono h ht.2⟩

theorem JoinCondition.Obeys.mono (h : L.Weaker M) : ∀ {c : JoinCondition}, c.Obeys M → c.Obeys L
  | .columns _, hc => fun s hs => h.side s (hc s hs)
  | .filter _, hc => Filter.Obeys.mono h hc

theorem Join.AllObey.mono (h : L.Weaker M) :
    ∀ {js : List Join}, Join.AllObey M js → Join.AllObey L js
  | [], _ => trivial
  | ⟨_, _, _⟩ :: _, hjs =>
    ⟨⟨h.join _ hjs.1.1, JoinTarget.Obeys.mono h hjs.1.2.1, JoinCondition.Obeys.mono h hjs.1.2.2⟩,
      Join.AllObey.mono h hjs.2⟩

theorem Order.AllObey.mono (h : L.Weaker M) :
    ∀ {os : List Order}, Order.AllObey M os → Order.AllObey L os
  | [], _ => trivial
  | ⟨_, _⟩ :: _, hos => ⟨Field.AllObey.mono h hos.1, Order.AllObey.mono h hos.2⟩

theorem Field.OptionObey.mono (h : L.Weaker M) :
    ∀ {fs : Option (List Field)}, Field.OptionObey M fs → Field.OptionObey L fs
  | none, _ => trivial
  | some _, hfs => Field.AllObey.mono h hfs

theorem JoinTarget.OptionObeys.mono (h : L.Weaker M) :
    ∀ {t : Option JoinTarget}, JoinTarget.OptionObeys M t → JoinTarget.OptionObeys L t
  | none, _ => trivial
  | some _, ht => JoinTarget.Obeys.mono h ht

theorem Staged.Obeys.mono (h : L.Weaker M) : ∀ {s : Staged}, s.Obeys M → s.Obeys L
  | ⟨_, _, _, _⟩, hs => ⟨Field.OptionObey.mono h hs.1, JoinTarget.OptionObeys.mono h hs.2⟩

/-- A query that obeys a law obeys every weaker one. -/
theorem Query.Obeys.mono (h : L.Weaker M) : ∀ {q : Query}, q.Obeys M → q.Obeys L
  | ⟨_, _, _, _, _, _, _, _, _, _, _, _⟩, ⟨hq, hs, hjs, hf, hp, hos, hgs, hst⟩ =>
    ⟨h.query _ hq, Statement.OptionObeys.mono h hs, Join.AllObey.mono h hjs,
      Filter.OptionObeys.mono h hf, Filter.OptionObeys.mono h hp, Order.AllObey.mono h hos,
      Field.AllObey.mono h hgs, Staged.Obeys.mono h hst⟩

end

end Mono

def Law.fixing (g : Value → Value) : Law where
  value v := g v = v

section Fixed

variable {g : Value → Value}

mutual

theorem Field.mapValues_eq_self : ∀ {f : Field}, f.Obeys (.fixing g) → f.mapValues g = f
  | .name _, _ => rfl
  | .qualified _ _, _ => rfl
  | .labelled _ _, _ => rfl
  | .aggregate _ _ _, _ => rfl
  | .function _ _ _, h => by rw [Field.mapValues, Operand.mapValuesAll_eq_self h.2]
  | .constant _ _, h => by rw [Field.mapValues, h.2]

theorem Field.mapValuesAll_eq_self :
    ∀ {fs : List Field}, Field.AllObey (.fixing g) fs → Field.mapValuesAll g fs = fs
  | [], _ => rfl
  | _ :: _, h => by
    rw [Field.mapValuesAll, Field.mapValues_eq_self h.1, Field.mapValuesAll_eq_self h.2]

theorem Operand.mapValues_eq_self : ∀ {x : Operand}, x.Obeys (.fixing g) → x.mapValues g = x
  | .value _, h => by rw [Operand.mapValues, h.2]
  | .field _, h => by rw [Operand.mapValues, Field.mapValues_eq_self h.2]
  | .list _, h => by rw [Operand.mapValues, Operand.mapValuesAll_eq_self h.2]
  | .query _, h => by rw [Operand.mapValues, Query.mapValues_eq_self h.2]

theorem Operand.mapValuesAll_eq_self :
    ∀ {xs : List Operand}, Operand.AllObey (.fixing g) xs → Operand.mapValuesAll g xs = xs
  | [], _ => rfl
  | _ :: _, h => by
    rw [Operand.mapValuesAll, Operand.mapValues_eq_self h.1, Operand.mapValuesAll_eq_self h.2]

theorem Test.mapValues_eq_self : ∀ {t : Test}, t.Obeys (.fixing g) → t.mapValues g = t
  | ⟨_, _⟩, h => by rw [Test.mapValues, Operand.mapValues_eq_self h]

theorem Test.mapValuesAll_eq_self :
    ∀ {ts : List Test}, Test.AllObey (.fixing g) ts → Test.mapValuesAll g ts = ts
  | [], _ => rfl
  | _ :: _, h => by
    rw [Test.mapValuesAll, Test.mapValues_eq_self h.1, Test.mapValuesAll_eq_self h.2]

theorem Filter.mapValues_eq_self : ∀ {f : Filter}, f.Obeys (.fixing g) → f.mapValues g = f
  | .logical _ _, h => by rw [Filter.mapValues, Filter.mapValuesAll_eq_self h.2]
  | .compare _ _, h => by rw [Filter.mapValues, Test.mapValues_eq_self h.2]
  | .function _ _ _ _, h => by
    rw [Filter.mapValues, Operand.mapValuesAll_eq_self h.2.1, Test.mapValuesAll_eq_self h.2.2]

theorem Filter.mapValuesAll_eq_self :
    ∀ {fs : List Filter}, Filter.AllObey (.fixing g) fs → Filter.mapValuesAll g fs = fs
  | [], _ => rfl
  | _ :: _, h => by
    rw [Filter.mapValuesAll, Filter.mapValues_eq_self h.1, Filter.mapValuesAll_eq_self h.2]

theorem Filter.mapValuesOption_eq_self :
    ∀ {f : Option Filter}, Filter.OptionObeys (.fixing g) f → Filter.mapValuesOption g f = f
  | none, _ => rfl
  | some _, h => by rw [Filter.mapValuesOption, Filter.mapValues_eq_self h]

theorem Entity.mapValues_eq_self : ∀ {e : Entity}, e.Obeys (.fixing g) → e.mapValues g = e
  | ⟨_, _, _⟩, h => by rw [Entity.mapValues, Field.mapValuesAll_eq_self h.2]

theorem Assignment.mapValuesAll_eq_self :
    ∀ {vs : List Assignment}, Assignment.AllObey (.fixing g) vs →
      Assignment.mapValuesAll g vs = vs
  | [], _ => rfl
  | ⟨_, _⟩ :: _, h => by
    rw [Assignment.mapValuesAll, Operand.mapValues_eq_self h.1.2,
      Assignment.mapValuesAll_eq_self h.2]

theorem Statement.mapValues_eq_self : ∀ {s : Statement}, s.Obeys (.fixing g) → s.mapValues g = s
  | .select _ _, h => by rw [Statement.mapValues, Field.mapValuesAll_eq_self h.2]
  | .insert _ _, h => by rw [Statement.mapValues, Assignment.mapValuesAll_eq_self h.2]
  | .update _ _, h => by rw [Statement.mapValues, Assignment.mapValuesAll_eq_self h.2]
  | .delete _, _ => rfl

theorem Statement.mapValuesOption_eq_self :
    ∀ {s : Option Statement}, Statement.OptionObeys (.fixing g) s →
      Statement.mapValuesOption g s = s
  | none, _ => rfl
  | some _, h => by rw [Statement.mapValuesOption, Statement.mapValues_eq_self h]

theorem JoinTarget.mapValues_eq_self : ∀ {t : JoinTarget}, t.Obeys (.fixing g) → t.mapValues g = t
  | .entity _, h => by rw [JoinTarget.mapValues, Entity.mapValues_eq_self h.2]
  | .query _, h => by rw [JoinTarget.mapValues, Query.mapValues_eq_self h.2]

theorem JoinCondition.mapValues_eq_self :
    ∀ {c : JoinCondition}, c.Obeys (.fixing g) → c.mapValues g = c
  | .columns _, _ => rfl
  | .filter _, h => by rw [JoinCondition.mapValues, Filter.mapValues_eq_self h]

theorem Join.mapValuesAll_eq_self :
    ∀ {js : List Join}, Join.AllObey (.fixing g) js → Join.mapValuesAll g js = js
  | [], _ => rfl
  | ⟨_, _, _⟩ :: _, h => by
    rw [Join.mapValuesAll, Join.mapValues, JoinTarget.mapValues_eq_self h.1.2.1,
      JoinCondition.mapValues_eq_self h.1.2.2, Join.mapValuesAll_eq_self h.2]

theorem Order.mapValuesAll_eq_self :
    ∀ {os : List Order}, Order.AllObey (.fixing g) os → Order.mapValuesAll g os = os
  | [], _ => rfl
  | ⟨_, _⟩ :: _, h => by
    rw [Order.mapValuesAll, Field.mapValuesAll_eq_self h.1, Order.mapValuesAll_eq_self h.2]

theorem Field.mapValuesOption_eq_self :
    ∀ {fs : Option (List Field)}, Field.OptionObey (.fixing g) fs → Field.mapValuesOption g fs = fs
  | none, _ => rfl
  | some _, h => by rw [Field.mapValuesOption, Field.mapValuesAll_eq_self h]

theorem JoinTarget.mapValuesOption_eq_self :
    ∀ {t : Option JoinTarget}, JoinTarget.OptionObeys (.fixing g) t →
      JoinTarget.mapValuesOption g t = t
  | none, _ => rfl
  | some _, h => by rw [JoinTarget.mapValuesOption, JoinTarget.mapValues_eq_self h]

theorem Staged.mapValues_eq_self : ∀ {s : Staged}, s.Obeys (.fixing g) → s.mapValues g = s
  | ⟨_, _, _, _⟩, h => by
    rw [Staged.mapValues, Field.mapValuesOption_eq_self h.1, JoinTarget.mapValuesOption_eq_self h.2]

/-- Replacing literals by themselves changes nothing. -/
theorem Query.mapValues_eq_self : ∀ {q : Query}, q.Obeys (.fixing g) → q.mapValues g = q
  | ⟨_, _, _, _, _, _, _, _, _, _, _, _⟩, ⟨_, hs, hjs, hf, hp, hos, hgs, hst⟩ => by
    rw [Query.mapValues, Statement.mapValuesOption_eq_self hs, Join.mapValuesAll_eq_self hjs,
      Filter.mapValuesOption_eq_self hf, Filter.mapValuesOption_eq_self hp,
      Order.mapValuesAll_eq_self hos, Field.mapValuesAll_eq_self hgs,
      Staged.mapValues_eq_self hst]

end

end Fixed

section Kept

variable {g : Value → Value}

theorem Query.isSelect_mapValues : ∀ {q : Query},
    (q.mapValues g).isSelect = q.isSelect
  | ⟨statement, _, _, _, _, _, _, _, _, _, _, _⟩ => by
    rcases statement with _ | (_ | _ | _ | _) <;> rfl

theorem Operand.isNull_mapValues (hnull : ∀ v, (g v).isNull = v.isNull) :
    ∀ x : Operand, (x.mapValues g).isNull = x.isNull
  | .value v => hnull v
  | .field _ | .list _ | .query _ => rfl

theorem Field.mapValuesAll_isEmpty : ∀ fs : List Field,
    (Field.mapValuesAll g fs).isEmpty = fs.isEmpty
  | [] => rfl
  | _ :: _ => rfl

theorem Assignment.mapValuesAll_isEmpty : ∀ vs : List Assignment,
    (Assignment.mapValuesAll g vs).isEmpty = vs.isEmpty
  | [] => rfl
  | ⟨_, _⟩ :: _ => rfl

theorem Assignment.map_column_mapValuesAll : ∀ vs : List Assignment,
    (Assignment.mapValuesAll g vs).map column = vs.map column
  | [] => rfl
  | ⟨_, _⟩ :: rest => by
    rw [Assignment.mapValuesAll, List.map_cons, List.map_cons, map_column_mapValuesAll rest]

theorem JoinTarget.isEmpty_fields_mapValues : ∀ t : JoinTarget,
    (t.mapValues g).fields.isEmpty = t.fields.isEmpty
  | .entity ⟨_, fs, _⟩ => Field.mapValuesAll_isEmpty fs
  | .query _ => rfl

theorem JoinTarget.label?_mapValues : ∀ t : JoinTarget,
    (t.mapValues g).label? = t.label?
  | .entity ⟨_, _, _⟩ => rfl
  | .query ⟨_, _, _, _, _, _, _, _, _, _, _, _⟩ => rfl

theorem Join.isEmpty_fields_mapValues : ∀ j : Join,
    (j.mapValues g).target.fields.isEmpty = j.target.fields.isEmpty
  | ⟨t, _, _⟩ => t.isEmpty_fields_mapValues

theorem Join.mapValuesAll_eq_map : ∀ js : List Join,
    Join.mapValuesAll g js = js.map (Join.mapValues g)
  | [] => rfl
  | _ :: rest => by rw [Join.mapValuesAll, List.map_cons, mapValuesAll_eq_map rest]

end Kept

end QueryCompiler
