import Mathlib
import QueryCompiler.Proofs.Traversal
import QueryCompiler.Proofs.VoidFilters

/-!
# Fields without an expression

A condition that is the empty text is left out of a statement, but a field that is the empty text is
not: an item of a list then has nothing between its commas, and a comparison nothing behind its
sign. Besides a name that is empty itself, only a call of a function that makes patterns renders so
(`Field.IsBlank`), for the same arguments that make a condition void.
-/

namespace QueryCompiler

/-- A field whose expression is the empty text. -/
def Field.IsBlank : Field → Prop
  | .name text => text = ""
  | .labelled _ expression => expression = ""
  | .function _ func args => IsBlankCall func args
  | .qualified .. | .aggregate .. | .constant .. => False

/-- The text of the field is an expression, empty exactly if the field is blank, with the label that
its use calls for. -/
def Field.ShownAs (use : FieldUse) (f : Field) (item : String) : Prop :=
  ∃ expression, item = use.named expression f.label? ∧ (expression = "" ↔ f.IsBlank)

/-- The text of a field to order by is an expression, empty exactly if the field is blank, with the
direction behind it. -/
def Field.OrderedAs (f : Direction × Field) (item : String) : Prop :=
  ∃ expression, item = expression ++ " " ++ f.1.sqlWord ∧ (expression = "" ↔ f.2.IsBlank)

namespace Query

/-- The fields to order by, each with its direction. -/
def orderedFields (q : Query) : List (Direction × Field) :=
  q.orders.flatMap fun o => o.fields.map fun f => (o.direction, f)

/-- The fields that joined tables contribute. -/
def joinedFields (q : Query) : List Field :=
  q.joins.flatMap fun j => j.target.fields

/-- The statement selects fields, groups by fields and orders by fields: each of its three lists has
an item for each field of the query, and an item without an expression for each that is blank. -/
structure ShowsFields (q : Query) (entity : String) (fs : List Field) (sql : String)
    (items grouped ordered : List String) : Prop where
  text : ∃ joined condition, sql = SqlWriter.selection entity q.distinct q.fixed items ++ joined ++
    condition ++ SqlWriter.clause " GROUP BY " grouped ++ SqlWriter.clause " ORDER BY " ordered ++
      SqlWriter.limitClause q.skip q.take
  selected : List.Forall₂ (Field.ShownAs .projection) (fs ++ q.joinedFields) items
  grouped : List.Forall₂ (Field.ShownAs .reference) q.groups grouped
  ordered : List.Forall₂ Field.OrderedAs q.orderedFields ordered

end Query

/-- What stands in front of the operand of a comparison, and what behind it. -/
def ComparisonOp.frame (target : String) : ComparisonOp → String × String
  | eq => ("(" ++ target ++ "=", ")")
  | ne => ("(NOT " ++ target ++ "=", ")")
  | gt => ("(" ++ target ++ ">", ")")
  | gte => ("(" ++ target ++ ">=", ")")
  | lt => ("(" ++ target ++ "<", ")")
  | lte => ("(" ++ target ++ "<=", ")")
  | isIn => ("(" ++ target ++ " IN (", "))")
  | notIn => ("(NOT " ++ target ++ " IN (", "))")

/-- The comparison, with the operand written out. -/
def ComparisonOp.framed (op : ComparisonOp) (target operand : String) : String :=
  (op.frame target).1 ++ operand ++ (op.frame target).2

/-- The text of an operand that is a field is an expression, empty exactly if the field is blank. -/
def Operand.ShownAs (x : Operand) (item : String) : Prop :=
  ∀ f, x = .field f → (item = "" ↔ f.IsBlank)

theorem Field.ShownAs.orderedAs {f : Field} {item : String} (h : f.ShownAs .reference item)
    (direction : Direction) : OrderedAs (direction, f) (item ++ " " ++ direction.sqlWord) := by
  obtain ⟨expression, rfl, hblank⟩ := h
  refine ⟨expression, ?_, hblank⟩
  cases f.label? <;> rfl

theorem Field.ShownAs.eq_empty_iff {f : Field} {item : String} (h : f.ShownAs .reference item) :
    item = "" ↔ f.IsBlank := by
  obtain ⟨expression, rfl, hblank⟩ := h
  rw [← hblank]
  cases f.label? <;> rfl

theorem Dialect.mysql_literal_ne_empty (v : Value) : mysql.literal v ≠ "" := by
  cases v with
  | null => decide
  | bool b => cases b <;> decide
  | integer n => exact fun h => toList_toString_ne_nil n.toInt (String.toList_eq_nil_iff.mpr h)
  | float x =>
    change (if x.isFinite then FloatLayout.plain.write x else "NULL") ≠ ""
    split_ifs
    · exact fun h => FloatLayout.toList_write_ne_nil _ x (String.toList_eq_nil_iff.mpr h)
    · decide
  | string s => simp [mysql, literalWith, quoteEscaped, String.ext_iff]
  | dateTime t => simp [mysql, literalWith]

namespace SqlWriter

/-! ## Lists of fields -/

/-- A field renders as an expression that is empty exactly if the field is blank. -/
theorem ensures_field (use : FieldUse) (f : Field) :
    Ensures (standard.field use f) (f.ShownAs use) := by
  cases f with
  | name name => exact .ok ⟨name, rfl, Iff.rfl⟩
  | qualified entity name => exact .ok ⟨_, rfl, iff_of_false (by simp) id⟩
  | labelled label expression => exact .ok ⟨expression, rfl, Iff.rfl⟩
  | aggregate label func name => exact .ok ⟨_, rfl, iff_of_false (by simp) id⟩
  | constant v label => exact .ok ⟨_, rfl, iff_of_false (Dialect.mysql_literal_ne_empty v) id⟩
  | function label func args =>
    rw [field]
    refine (ensures_arguments args).bind fun as has => ?_
    have hcall : Ensures (standard.call func as) fun sql => sql = "" ↔ IsBlankCall func args :=
      (Catalogue.ensures_render _ has).mapError
    exact hcall.bind fun sql hsql => .ok ⟨sql, rfl, hsql⟩

theorem ensures_fields (use : FieldUse) (fs : List Field) :
    Ensures (standard.fields use fs) (List.Forall₂ (Field.ShownAs use) fs) := by
  induction fs with
  | nil => exact .ok .nil
  | cons f fs ih =>
    rw [fields]
    exact (ensures_field use f).bind fun _ hf => ih.bind fun _ hfs => .ok (.cons hf hfs)

theorem ensures_joinedFields (js : List Join) :
    Ensures (standard.joinedFields js)
      (List.Forall₂ (Field.ShownAs .projection) (js.flatMap fun j => j.target.fields)) := by
  induction js with
  | nil => exact .ok .nil
  | cons j js ih =>
    obtain ⟨⟨name, fs, entityLabel⟩ | q, condition, label⟩ := j
    · exact (ensures_fields .projection fs).bind fun _ hfs => ih.bind fun _ hrest =>
        .ok (List.rel_append hfs hrest)
    · exact ih.bind fun _ hrest => .ok hrest

theorem ensures_orders (os : List Order) :
    Ensures (standard.orders os)
      (List.Forall₂ Field.OrderedAs (os.flatMap fun o => o.fields.map fun f => (o.direction, f))) := by
  induction os with
  | nil => exact .ok .nil
  | cons o os ih =>
    obtain ⟨direction, fs⟩ := o
    rw [orders]
    refine .ite (fun _ => .error _) fun _ => ?_
    refine (ensures_fields .reference fs).bind fun own hown => ih.bind fun _ hrest => .ok ?_
    refine List.rel_append ?_ hrest
    rw [List.forall₂_map_left_iff, List.forall₂_map_right_iff]
    exact hown.imp fun f item h => h.orderedAs direction

theorem ensures_showsFields {q : Query} {entity : String} {fs : List Field}
    (hq : q.statement = some (.select entity fs)) :
    Ensures (standard.query q) fun sql =>
      ∃ items grouped ordered, q.ShowsFields entity fs sql items grouped ordered := by
  obtain ⟨statement, js, condition, prepared, os, groups, distinct, fixed, skip, take, label,
    staged⟩ := q
  obtain rfl : statement = some (.select entity fs) := hq
  rw [query]
  refine .ite (fun _ => .error _) fun _ => ?_
  refine (ensures_fields .projection fs).bind fun own hown => ?_
  refine (ensures_joinedFields js).bind fun contributed hcontributed => ?_
  refine (Ensures.trivial (standard.joins entity js)).bind fun joined _ => ?_
  refine (Ensures.trivial (standard.filter? condition)).bind fun f _ => ?_
  refine (Ensures.trivial (standard.filter? prepared)).bind fun p _ => ?_
  refine (ensures_fields .reference groups).bind fun grouped hgrouped => ?_
  refine (ensures_orders os).bind fun ordered hordered => .ok ?_
  exact ⟨own ++ contributed, grouped, ordered, ⟨joined, _, rfl⟩, List.rel_append hown hcontributed,
    hgrouped, hordered⟩

/-! ## Comparisons -/

theorem ensures_operand (x : Operand) : Ensures (standard.operand x) x.ShownAs := by
  rintro sql hsql f rfl
  exact (ensures_field .reference f sql hsql).eq_empty_iff

theorem ensures_operands (xs : List Operand) :
    Ensures (standard.operands xs) (List.Forall₂ Operand.ShownAs xs) := by
  induction xs with
  | nil => exact .ok .nil
  | cons x xs ih =>
    rw [operands]
    exact (ensures_operand x).bind fun _ hx => ih.bind fun _ hxs => .ok (.cons hx hxs)

/-- A comparison with a field has its expression behind the sign. -/
theorem ensures_test_field (target : String) (op : ComparisonOp) (f : Field) :
    Ensures (standard.test target ⟨op, .field f⟩) fun sql =>
      ∃ expression, sql = op.framed target expression ∧ (expression = "" ↔ f.IsBlank) := by
  have hframed : ∀ op : ComparisonOp, Ensures (op.framed target <$> standard.operand (.field f))
      fun sql => ∃ expression, sql = op.framed target expression ∧ (expression = "" ↔ f.IsBlank) :=
    fun op => (ensures_operand (.field f)).map fun expression h => ⟨expression, rfl, h f rfl⟩
  unfold test
  cases op with
  | eq => exact hframed .eq
  | ne => exact hframed .ne
  | gt => exact hframed .gt
  | gte => exact hframed .gte
  | lt => exact hframed .lt
  | lte => exact hframed .lte
  | isIn | notIn => exact .error _

/-- A comparison with the items of a list has their expressions between commas. -/
theorem ensures_test_list (target : String) (op : ComparisonOp) {xs : List Operand} (hxs : xs ≠ []) :
    Ensures (standard.test target ⟨op, .list xs⟩) fun sql =>
      ∃ items, sql = op.framed target (Text.joined ", " items) ∧
        List.Forall₂ Operand.ShownAs xs items := by
  obtain ⟨x, xs, rfl⟩ := List.exists_cons_of_ne_nil hxs
  have hframed : ∀ op : ComparisonOp, Ensures
      (op.framed target <$> (Text.joined ", " <$> standard.operands (x :: xs)))
      fun sql => ∃ items, sql = op.framed target (Text.joined ", " items) ∧
        List.Forall₂ Operand.ShownAs (x :: xs) items :=
    fun op => ((ensures_operands _).map (Q := fun list => ∃ items, list = Text.joined ", " items ∧
      List.Forall₂ Operand.ShownAs (x :: xs) items) fun items h => ⟨items, rfl, h⟩).map <| by
        rintro _ ⟨items, rfl, h⟩
        exact ⟨items, rfl, h⟩
  unfold test
  cases op with
  | eq => exact hframed .eq
  | ne => exact hframed .ne
  | gt => exact hframed .gt
  | gte => exact hframed .gte
  | lt => exact hframed .lt
  | lte => exact hframed .lte
  | isIn => exact hframed .isIn
  | notIn => exact hframed .notIn

/-- A field renders as an expression that is empty exactly if the field is blank. So an item of the
list, of the groups or of the order of a select statement lacks its expression exactly if its field
is blank, and so does a comparison with a field or an item of a list that is compared with. -/
theorem expression_eq_empty_iff (use : FieldUse) (f : Field) (q : Query) (target : String)
    (op : ComparisonOp) (xs : List Operand) :
    (∀ item, standard.field use f = .ok item → f.ShownAs use item) ∧
    (∀ entity fs sql, q.statement = some (.select entity fs) → standard.query q = .ok sql →
      ∃ items grouped ordered, q.ShowsFields entity fs sql items grouped ordered) ∧
    (∀ sql, standard.test target ⟨op, .field f⟩ = .ok sql →
      ∃ expression, sql = op.framed target expression ∧ (expression = "" ↔ f.IsBlank)) ∧
    ∀ sql, xs ≠ [] → standard.test target ⟨op, .list xs⟩ = .ok sql →
      ∃ items, sql = op.framed target (Text.joined ", " items) ∧
        List.Forall₂ Operand.ShownAs xs items :=
  ⟨ensures_field use f, fun _ _ sql hq h => ensures_showsFields hq sql h,
    ensures_test_field target op f, fun sql hxs h => ensures_test_list target op hxs sql h⟩

end SqlWriter

/-- Whether the name starts with a pattern. -/
def nameStarts (pattern : Value) : Field :=
  .function "starts" "startswith" [.field (.name "name"), .value pattern]

/-- The people, ordered by whether their names start with a pattern. -/
def peopleBy (pattern : Value) : Query :=
  { (∅ : Query) with
    statement := some (.select "people" [.name "id", nameStarts pattern])
    orders := [⟨.ascending, [nameStarts pattern]⟩] }

theorem SqlWriter.expression_eq_empty_iff_nameStarts :
    ¬ (nameStarts (.string "A")).IsBlank ∧
    (∃ items grouped ordered, (peopleBy (.string "A")).ShowsFields "people"
      [.name "id", nameStarts (.string "A")]
      "SELECT id, (name REGEXP '^A') AS starts FROM people ORDER BY (name REGEXP '^A') ASC"
      items grouped ordered) ∧
    (∃ expression, "(starts=(name REGEXP '^A'))" = ComparisonOp.eq.framed "starts" expression ∧
      (expression = "" ↔ (nameStarts (.string "A")).IsBlank)) ∧
    ∃ items, "(starts=(name REGEXP '^A'))"
        = ComparisonOp.eq.framed "starts" (Text.joined ", " items) ∧
      List.Forall₂ Operand.ShownAs [.field (nameStarts (.string "A"))] items := by
  obtain ⟨hfield, hquery, htest, hlist⟩ := expression_eq_empty_iff .reference
    (nameStarts (.string "A")) (peopleBy (.string "A")) "starts" .eq
    [.field (nameStarts (.string "A"))]
  have hshown := hfield "(name REGEXP '^A')" rfl
  exact ⟨fun h => absurd (hshown.eq_empty_iff.mpr h) (by decide), hquery _ _ _ rfl rfl, htest _ rfl,
    hlist _ (by simp) rfl⟩

/-- Every name, every label and every expression that is passed through is there. -/
def Law.named : Law where
  field
    | .name name => name ≠ ""
    | .qualified entity name => entity ≠ "" ∧ name ≠ ""
    | .labelled label expression => label ≠ "" ∧ expression ≠ ""
    | .aggregate label _ name => label ≠ "" ∧ name ≠ ""
    | .function label _ _ => label ≠ ""
    | .constant _ label => ∀ name ∈ label, name ≠ ""

/-- A field in which nothing is left without a name may render without an expression, and then
stands without one in the list and in the order of a select statement and behind the sign of a
comparison. -/
theorem SqlWriter.field_of_nameStarts_null :
    ¬ (∀ use f item expression, f.Obeys .named → standard.field use f = .ok item →
      item = use.named expression f.label? → expression ≠ "") ∧
    standard.query (peopleBy .null) = .ok "SELECT id,  AS starts FROM people ORDER BY  ASC" ∧
    standard.test "starts" ⟨.eq, .field (nameStarts .null)⟩ = .ok "(starts=)" := by
  have hnamed : (nameStarts .null).Obeys .named :=
    ⟨by simp [Law.named], ⟨trivial, by simp [Field.Obeys, Law.named]⟩, ⟨trivial, trivial⟩, trivial⟩
  exact ⟨fun h => h .projection (nameStarts .null) " AS starts" "" hnamed rfl rfl rfl, rfl, rfl⟩

end QueryCompiler
