import Mathlib
import QueryCompiler.Proofs.NumberText
import QueryCompiler.Proofs.Outcome
import QueryCompiler.Proofs.Quoting
import QueryCompiler.Proofs.Refusal

/-!
# Filters without text

A condition that is the empty text leaves a statement without its `WHERE` clause, so it touches every
row. Only the functions that make patterns render as the empty text, and only for an argument that
is missing or null, or empty where the pattern may stand anywhere (`IsVoidCall`). A combination is
the empty text if all that it combines is.
-/

namespace QueryCompiler

/-- There is no argument at the place, or it is null. -/
def IsMissing (xs : List Operand) (i : ℕ) : Prop :=
  ∀ x ∈ xs[i]?, x = .null

/-- A call that renders as the empty text, whatever its first argument is. -/
def IsBlankCall (func : String) (xs : List Operand) : Prop :=
  func ∈ patternFunctions ∧
    (IsMissing xs 0 ∨ IsMissing xs 1 ∨ (func = "contains" ∧ xs[1]? = some (.value (.string ""))))

/-- A call on a field that renders as the empty text. -/
def IsVoidCall (func : String) : List Operand → Prop
  | [] => func ∈ patternFunctions
  | x :: _ =>
    (func ∈ patternFunctions ∧ x = .null) ∨ (func = "contains" ∧ x = .value (.string ""))

mutual

/-- A filter that renders as the empty text. -/
def Filter.IsVoid : Filter → Prop
  | .logical _ operands => Filter.AllVoid operands
  | .compare _ _ => False
  | .function _ func args _ => IsVoidCall func args

def Filter.AllVoid : List Filter → Prop
  | [] => True
  | f :: rest => f.IsVoid ∧ Filter.AllVoid rest

end

/-! ## Calls of functions -/

/-- What a pattern function asks of its argument is what the operand is. -/
structure PatternOf (x : Operand) (a : Argument) : Prop where
  isNull : a.isNull = true ↔ x = .null
  isEmpty : a.pattern = some "" ↔ x = .value (.string "")

/-- A literal that is neither null nor a string has a pattern that is not empty. -/
theorem PatternOf.of_pattern {v : Value} {a : Argument} {text : String} (hnull : a.isNull = false)
    (hpattern : a.pattern = some text) (hv : v ≠ .null)
    (htext : text = "" ↔ v = .string "") : PatternOf (.value v) a := by
  constructor
  · rw [hnull]
    simpa [Operand.null] using hv
  · rw [hpattern, Option.some.injEq, htext, Operand.value.injEq]

namespace SqlWriter

theorem patternOf_literalArgument (v : Value) :
    PatternOf (.value v) (standard.literalArgument v) := by
  have hne : ∀ {text : String}, text.toList ≠ [] → text ≠ "" := fun htext => by
    rintro rfl
    exact htext rfl
  cases v with
  | null =>
    exact ⟨by simp [literalArgument, Argument.null, Operand.null],
      by simp [literalArgument, Argument.null]⟩
  | bool b =>
    refine .of_pattern rfl rfl (by simp) (iff_of_false ?_ (by simp))
    cases b <;> decide
  | integer n =>
    refine .of_pattern rfl rfl (by simp) (iff_of_false ?_ (by simp))
    exact hne (toList_toString_ne_nil _)
  | float x =>
    refine .of_pattern rfl rfl (by simp) (iff_of_false ?_ (by simp))
    change (if x.isFinite then FloatLayout.plain.write x else "NULL") ≠ ""
    split_ifs
    · exact hne (FloatLayout.toList_write_ne_nil _ x)
    · decide
  | string s =>
    refine .of_pattern rfl (Argument.quotedBody?_quote _) (by simp) ?_
    rw [← String.toList_eq_nil_iff, String.toList_ofList, Dialect.flatMap_escapeChar_eq_nil,
      String.toList_eq_nil_iff, Value.string.injEq]
  | dateTime t =>
    have hpattern : (standard.literalArgument (.dateTime t)).pattern = some t.statementText :=
      quotedBody?_mysql_dateTime t
    refine .of_pattern rfl hpattern (by simp) (iff_of_false ?_ (by simp))
    simp [DateTime.statementText]

theorem patternOf_raw {x : Operand} (hx : x.isValue = false) (sql : String) :
    PatternOf x (.raw sql) := by
  constructor
  · refine ⟨fun h => (by cases h), ?_⟩
    rintro rfl
    cases hx
  · refine ⟨fun h => (by cases h), ?_⟩
    rintro rfl
    cases hx

theorem ensures_argument (x : Operand) : Ensures (standard.argument x) (PatternOf x) := by
  cases x with
  | value v => exact .ok (patternOf_literalArgument v)
  | field f => exact Ensures.bind (.trivial _) fun sql _ => .ok (patternOf_raw rfl sql)
  | list items => exact Ensures.bind (.trivial _) fun sqls _ => .ok (patternOf_raw rfl _)
  | query q => exact Ensures.bind (.trivial _) fun sql _ => .ok (patternOf_raw rfl _)

theorem ensures_arguments (xs : List Operand) :
    Ensures (standard.arguments xs) (List.Forall₂ PatternOf xs) := by
  induction xs with
  | nil => exact .ok .nil
  | cons x xs ih =>
    exact (ensures_argument x).bind fun _ ha => ih.bind fun _ has => .ok (.cons ha has)

end SqlWriter

namespace Renderer

variable {name : String} {xs : List Operand} {as : List Argument}

/-- There is no argument at a place, or it is null, or it is there. -/
theorem present?_cases (h : List.Forall₂ PatternOf xs as) : ∀ i : ℕ,
    (Argument.present? as i = none ∧ IsMissing xs i) ∨
      ∃ x a, Argument.present? as i = some a ∧ xs[i]? = some x ∧ x ≠ .null ∧ PatternOf x a := by
  induction h with
  | nil => exact fun _ => .inl ⟨by simp [Argument.present?], by simp [IsMissing]⟩
  | @cons x a xs as hxa _ ih =>
    intro i
    cases i with
    | succ i => simpa [Argument.present?, IsMissing] using ih i
    | zero =>
      cases hnull : a.isNull with
      | true =>
        refine .inl ⟨by simp [Argument.present?, hnull], ?_⟩
        simpa [IsMissing] using hxa.isNull.mp hnull
      | false =>
        refine .inr ⟨x, a, by simp [Argument.present?, hnull], rfl, ?_, hxa⟩
        rintro rfl
        rw [hxa.isNull.mpr rfl] at hnull
        cases hnull

theorem not_isMissing {x : Operand} {i : ℕ} (hxs : xs[i]? = some x) (hx : x ≠ .null) :
    ¬ IsMissing xs i := fun h => hx (h x hxs)

theorem ensures_patternText (a : Argument) :
    Ensures (patternText name a) fun text => a.pattern = some text := by
  unfold patternText
  split
  · rename_i text htext
    exact .ok htext
  · exact .error _

theorem regexp_ne_empty (subject before body after : String) :
    regexp subject before body after ≠ "" := by
  simp [regexp]

theorem ensures_patternCall (before after : String) (h : List.Forall₂ PatternOf xs as) :
    Ensures (patternCall name before after as) fun sql =>
      sql = "" ↔ IsMissing xs 0 ∨ IsMissing xs 1 := by
  unfold patternCall
  rcases present?_cases h 0 with ⟨hnone, hmissing⟩ | ⟨x, a, hsome, hxs, hx, -⟩
  · rw [hnone]
    exact .ok (iff_of_true rfl (.inl hmissing))
  · rw [hsome]
    rcases present?_cases h 1 with ⟨hnone, hmissing⟩ | ⟨y, b, hsome', hxs', hy, -⟩
    · rw [hnone]
      exact .ok (iff_of_true rfl (.inr hmissing))
    · rw [hsome']
      have hthere := not_or.mpr ⟨not_isMissing hxs hx, not_isMissing hxs' hy⟩
      exact (ensures_patternText b).bind fun text _ =>
        .ok (iff_of_false (regexp_ne_empty _ _ _ _) hthere)

theorem ensures_containsCall (h : List.Forall₂ PatternOf xs as) :
    Ensures (containsCall name as) fun sql =>
      sql = "" ↔ IsMissing xs 0 ∨ IsMissing xs 1 ∨ xs[1]? = some (.value (.string "")) := by
  unfold containsCall
  rcases present?_cases h 0 with ⟨hnone, hmissing⟩ | ⟨x, a, hsome, hxs, hx, -⟩
  · rw [hnone]
    exact .ok (iff_of_true rfl (.inl hmissing))
  · rw [hsome]
    rcases present?_cases h 1 with ⟨hnone, hmissing⟩ | ⟨y, b, hsome', hxs', hy, hyb⟩
    · rw [hnone]
      exact .ok (iff_of_true rfl (.inr (.inl hmissing)))
    · rw [hsome']
      refine (ensures_patternText b).bind fun text htext => .ok ?_
      have hempty : text = "" ↔ y = .value (.string "") := by
        rw [← hyb.isEmpty, htext, Option.some.injEq]
      simp [hempty, hxs', not_isMissing hxs hx, not_isMissing hxs' hy, regexp_ne_empty]

/-- Whatever makes no pattern renders as some text. -/
theorem ensures_render_ne_empty {renderer : Renderer} (name : String) (args : List Argument)
    (h : renderer ∉ [.startsWith, .endsWith, .contains]) :
    Ensures (renderer.render name args) (· ≠ "") := by
  cases renderer with
  | startsWith | endsWith | contains => simp at h
  | unary =>
    unfold render
    dsimp only
    split
    · exact .ok (by simp)
    · exact .error _
  | concat | indexOf | round => exact .ok (by simp)
  | arithmetic =>
    unfold render
    dsimp only
    split
    · exact .error _
    · split
      · exact .ok (by simp)
      · exact .ok (by simp)
  | substring =>
    unfold render substringCall
    dsimp only
    split
    · refine Ensures.bind (.trivial _) fun start _ => ?_
      split
      · refine Ensures.bind (.trivial _) fun position _ => ?_
        split
        · exact .ok (by simp)
        · split
          · exact .error _
          · refine .ok ?_
            split_ifs <;> simp
      · exact .error _
    · exact .error _

end Renderer

namespace Catalogue

/-- The names tell which of the functions that make patterns is which. -/
theorem contains_iff_of_mem_builtins : ∀ signature ∈ builtins,
    (signature.renderer = .contains ↔ signature.name = "contains") := by decide

variable {func : String} {xs : List Operand} {as : List Argument}

theorem isBlankCall_cons {x : Operand} (hx : x ≠ .null) (func : String) (xs : List Operand) :
    IsBlankCall func (x :: xs) ↔ IsVoidCall func xs := by
  have hfirst : ¬ IsMissing (x :: xs) 0 := Renderer.not_isMissing rfl hx
  have hcontains : "contains" ∈ patternFunctions := by decide
  cases xs with
  | nil => simp [IsBlankCall, IsVoidCall, IsMissing]
  | cons y ys =>
    have hsecond : IsMissing (x :: y :: ys) 1 ↔ y = .null := by simp [IsMissing]
    simp only [IsBlankCall, IsVoidCall, hfirst, hsecond, false_or, List.getElem?_cons_succ,
      List.getElem?_cons_zero, Option.some.injEq, and_or_left]
    refine or_congr_right (and_iff_right_of_imp ?_)
    rintro ⟨rfl, -⟩
    exact hcontains

theorem ensures_renderer {signature : Signature} (hmem : signature ∈ builtins)
    (h : List.Forall₂ PatternOf xs as) :
    Ensures (signature.renderer.render signature.name as) fun sql =>
      sql = "" ↔ IsBlankCall signature.name xs := by
  have hpattern := (renderer_iff_of_mem_builtins signature hmem).1
  have hcontains := contains_iff_of_mem_builtins signature hmem
  intro sql hsql
  by_cases hmakes : signature.renderer ∈ [.startsWith, .endsWith, .contains]
  · rw [IsBlankCall, and_iff_right (hpattern.mp hmakes), ← hcontains]
    simp only [List.mem_cons, List.not_mem_nil, or_false] at hmakes
    rcases hmakes with hrenderer | hrenderer | hrenderer
    · rw [hrenderer] at hsql ⊢
      simpa using Renderer.ensures_patternCall _ _ h sql hsql
    · rw [hrenderer] at hsql ⊢
      simpa using Renderer.ensures_patternCall _ _ h sql hsql
    · rw [hrenderer] at hsql ⊢
      simpa using Renderer.ensures_containsCall h sql hsql
  · exact iff_of_false (Renderer.ensures_render_ne_empty _ _ hmakes sql hsql)
      fun hblank => hmakes (hpattern.mpr hblank.1)

theorem ensures_lookup (func : String) :
    Ensures (standard.lookup func) fun signature => signature ∈ builtins ∧ signature.name = func := by
  intro signature hfound
  rw [lookup] at hfound
  cases hfind : standard.find? func with
  | none =>
    rw [hfind] at hfound
    cases hfound
  | some found =>
    rw [hfind] at hfound
    cases hfound
    exact ⟨List.mem_of_find?_eq_some hfind, by simpa using List.find?_some hfind⟩

/-- A call renders as the empty text exactly if it is blank. -/
theorem ensures_render (func : String) (h : List.Forall₂ PatternOf xs as) :
    Ensures (standard.render func as) fun sql => sql = "" ↔ IsBlankCall func xs := by
  refine (ensures_lookup func).bind ?_
  rintro signature ⟨hmem, rfl⟩
  split_ifs
  · exact .error _
  · exact ensures_renderer hmem h

end Catalogue

/-! ## Filters -/

theorem Connective.combine_eq_empty_iff (connective : Connective) (parts : List String) :
    connective.combine parts = "" ↔ ∀ part ∈ parts, part = "" := by
  unfold combine
  dsimp only
  split_ifs with h
  · exact iff_of_true rfl (by simpa [List.filter_eq_nil_iff] using h)
  · refine iff_of_false (by simp) fun hall => h ?_
    simpa [List.filter_eq_nil_iff] using hall

namespace SqlWriter

theorem ensures_test_ne_empty {ρ : Type} [Renders ρ] {w : SqlWriter ρ} (target : String)
    (t : Test) : Ensures (w.test target t) (· ≠ "") := by
  obtain ⟨op, x⟩ := t
  cases op with
  | eq | ne =>
    unfold test
    dsimp only
    split_ifs
    · exact .ok (by simp)
    · exact Ensures.bind (.trivial _) fun sql _ => .ok (by simp)
  | gt | gte | lt | lte | isIn | notIn =>
    exact Ensures.bind (.trivial _) fun sql _ => .ok (by simp)

theorem ensures_function (field func : String) (args : List Operand) (tests : List Test) :
    Ensures (standard.filter (.function field func args tests)) fun sql =>
      sql = "" ↔ (Filter.function field func args tests).IsVoid := by
  rw [filter, Filter.IsVoid]
  refine (ensures_arguments args).bind fun as has => ?_
  have hcall : Ensures (standard.call func (.raw field :: as)) fun sql =>
      sql = "" ↔ IsVoidCall func args := by
    have hfield : PatternOf (.field (.name field)) (.raw field) := patternOf_raw rfl field
    have hrender := Catalogue.ensures_render func (.cons hfield has)
    simp only [Catalogue.isBlankCall_cons (x := .field (.name field)) (by simp [Operand.null])]
      at hrender
    exact hrender.mapError
  refine hcall.bind fun sql hsql => ?_
  split_ifs with hempty
  · exact .ok (iff_of_true rfl (hsql.mp hempty))
  · have hvoid := mt hsql.mpr hempty
    split
    · exact .ok (iff_of_false (by simp) hvoid)
    · rename_i t
      exact fun text htext => iff_of_false (ensures_test_ne_empty sql t text htext) hvoid
    · exact Ensures.bind (.trivial _) fun texts _ => .ok (iff_of_false (by simp) hvoid)

mutual

/-- A filter renders as the empty text exactly if it is void. -/
theorem ensures_filter : ∀ f : Filter, Ensures (standard.filter f) fun sql => sql = "" ↔ f.IsVoid
  | .logical connective operands => by
    rw [filter, Filter.IsVoid]
    refine (ensures_filters operands).bind fun sqls hsqls => .ok ?_
    rw [Connective.combine_eq_empty_iff, hsqls]
  | .compare field t => by
    rw [filter, Filter.IsVoid]
    exact fun sql hsql => iff_of_false (ensures_test_ne_empty field t sql hsql) id
  | .function field func args tests => ensures_function field func args tests

theorem ensures_filters : ∀ fs : List Filter,
    Ensures (standard.filters fs) fun sqls => (∀ sql ∈ sqls, sql = "") ↔ Filter.AllVoid fs
  | [] => .ok (by simp [Filter.AllVoid])
  | f :: fs => by
    rw [filters, Filter.AllVoid]
    refine (ensures_filter f).bind fun sql hsql => (ensures_filters fs).bind fun sqls hsqls => .ok ?_
    rw [List.forall_mem_cons, hsql, hsqls]

end

end SqlWriter

/-! ## Statements -/

namespace Query

/-- The statement takes a condition. -/
def TakesCondition (q : Query) : Prop :=
  match q.statement with
  | some (.select _ _) | some (.update _ _) | some (.delete _) => True
  | some (.insert _ _) | none => False

/-- The query without its condition. -/
def unfiltered (q : Query) : Query :=
  { q with filter := none, prepared := none }

/-- The query without its condition and without what stands behind. -/
def untilCondition (q : Query) : Query :=
  { q.unfiltered with orders := [], groups := [], skip := none, take := none }

/-- The statement of a query is that of the query without its condition, cut where the condition
belongs, with a `WHERE` clause in between exactly if there is a condition that is not void. -/
structure ShowsCondition (q : Query) (sql before after : String) : Prop where
  front : SqlWriter.standard.query q.untilCondition = .ok before
  whole : SqlWriter.standard.query q.unfiltered = .ok (before ++ after)
  clause : (∃ condition, condition ≠ "" ∧ sql = before ++ " WHERE " ++ condition ++ after) ↔
    ∃ f ∈ q.whereFilter?, ¬ f.IsVoid
  shown : ∀ f ∈ q.whereFilter?, ¬ f.IsVoid → ∃ condition,
    SqlWriter.standard.filter f = .ok condition ∧ sql = before ++ " WHERE " ++ condition ++ after
  lost : (∀ f ∈ q.whereFilter?, f.IsVoid) → sql = before ++ after

end Query

namespace SqlWriter

/-- What a query and its earlier phases say renders as its condition. -/
theorem filter?_whereFilter? {q : Query} {f p : Option String}
    (hf : standard.filter? q.filter = .ok f) (hp : standard.filter? q.prepared = .ok p) :
    standard.filter? q.whereFilter? = .ok (bothConditions f p) := by
  unfold Query.whereFilter? Query.both?
  cases hfilter : q.filter with
  | none =>
    rw [hfilter] at hf
    cases hf
    cases p <;> exact hp
  | some g =>
    rw [hfilter, filter?] at hf
    obtain ⟨sql, hsql, hf⟩ := exists_of_bind_eq_ok hf
    cases hf
    cases hprepared : q.prepared with
    | none =>
      rw [hprepared] at hp
      cases hp
      simp only [filter?, hsql]
      rfl
    | some prepared =>
      rw [hprepared, filter?] at hp
      obtain ⟨sql', hsql', hp⟩ := exists_of_bind_eq_ok hp
      cases hp
      simp only [filter?, Filter.conjunction, filter, filters, hsql, hsql']
      rfl

theorem showsCondition {q : Query} {sql before after : String} {condition : Option String}
    (hfront : standard.query q.untilCondition = .ok before)
    (hwhole : standard.query q.unfiltered = .ok (before ++ after))
    (hcondition : standard.filter? q.whereFilter? = .ok condition)
    (hsql : sql = before ++ whereClause condition ++ after) : q.ShowsCondition sql before after := by
  have hlonger : ∀ condition, before ++ " WHERE " ++ condition ++ after ≠ before ++ after := by
    intro condition h
    have hlength := congrArg String.length h
    simp only [String.length_append] at hlength
    have hwords : " WHERE ".length = 7 := rfl
    omega
  cases hfilter : q.whereFilter? with
  | none =>
    rw [hfilter] at hcondition
    cases hcondition
    rw [whereClause, String.append_empty] at hsql
    refine ⟨hfront, hwhole, iff_of_false ?_ (by simp [hfilter]), by simp [hfilter], fun _ => hsql⟩
    rintro ⟨condition, -, h⟩
    exact hlonger condition (h.symm.trans hsql)
  | some f =>
    rw [hfilter, filter?] at hcondition
    obtain ⟨text, htext, hcondition⟩ := exists_of_bind_eq_ok hcondition
    cases hcondition
    have hvoid := ensures_filter f text htext
    by_cases hempty : text = ""
    · rw [whereClause, if_pos hempty, String.append_empty] at hsql
      refine ⟨hfront, hwhole, iff_of_false ?_ ?_, ?_, fun _ => hsql⟩
      · rintro ⟨condition, -, h⟩
        exact hlonger condition (h.symm.trans hsql)
      · simpa [hfilter] using hvoid.mp hempty
      · simpa [hfilter] using fun h => absurd (hvoid.mp hempty) h
    · have hshown : ¬ f.IsVoid := mt hvoid.mpr hempty
      rw [whereClause, if_neg hempty, ← String.append_assoc] at hsql
      refine ⟨hfront, hwhole, iff_of_true ⟨text, hempty, hsql⟩ ⟨f, hfilter, hshown⟩, ?_, ?_⟩
      · intro g hg _
        rw [hfilter] at hg
        cases hg
        exact ⟨text, htext, hsql⟩
      · exact fun hall => absurd (hall f hfilter) hshown

section Statements

variable {js : List Join} {condition prepared : Option Filter} {os : List Order}
  {groups : List Field} {distinct fixed : Bool} {skip take : Option UInt64} {label : Option String}
  {staged : Staged}

theorem ensures_select (entity : String) (fs : List Field) :
    Ensures (standard.query ⟨some (.select entity fs), js, condition, prepared, os, groups, distinct,
      fixed, skip, take, label, staged⟩) fun sql => ∃ before after, Query.ShowsCondition
        ⟨some (.select entity fs), js, condition, prepared, os, groups, distinct, fixed, skip, take,
          label, staged⟩ sql before after := by
  intro sql h
  simp only [query] at h
  split_ifs at h with hfields
  obtain ⟨own, hown, h⟩ := exists_of_bind_eq_ok h
  obtain ⟨contributed, hcontributed, h⟩ := exists_of_bind_eq_ok h
  obtain ⟨joined, hjoined, h⟩ := exists_of_bind_eq_ok h
  obtain ⟨f, hf, h⟩ := exists_of_bind_eq_ok h
  obtain ⟨p, hp, h⟩ := exists_of_bind_eq_ok h
  obtain ⟨grouped, hgrouped, h⟩ := exists_of_bind_eq_ok h
  obtain ⟨ordered, hordered, h⟩ := exists_of_bind_eq_ok h
  cases h
  have hbare : ∀ {os groups skip take grouped ordered}, standard.orders os = .ok ordered →
      standard.fields .reference groups = .ok grouped →
      standard.query ⟨some (.select entity fs), js, none, none, os, groups, distinct, fixed, skip,
        take, label, staged⟩ = .ok (selection entity distinct fixed (own ++ contributed) ++ joined ++
          whereClause none ++ clause " GROUP BY " grouped ++ clause " ORDER BY " ordered ++
            limitClause skip take) := by
    intro os groups skip take grouped ordered hordered hgrouped
    simp only [query, if_neg hfields, hown, hcontributed, hjoined, hgrouped, hordered]
    rfl
  refine ⟨selection entity distinct fixed (own ++ contributed) ++ joined,
    clause " GROUP BY " grouped ++ clause " ORDER BY " ordered ++ limitClause skip take,
    showsCondition ?_ ?_ (filter?_whereFilter? hf hp) ?_⟩
  · refine (hbare rfl rfl).trans ?_
    simp [whereClause, clause, limitClause]
  · refine (hbare hordered hgrouped).trans ?_
    simp [whereClause, String.append_assoc]
  · simp only [String.append_assoc]

theorem ensures_update (entity : String) (vs : List Assignment) :
    Ensures (standard.query ⟨some (.update entity vs), js, condition, prepared, os, groups, distinct,
      fixed, skip, take, label, staged⟩) fun sql => ∃ before after, Query.ShowsCondition
        ⟨some (.update entity vs), js, condition, prepared, os, groups, distinct, fixed, skip, take,
          label, staged⟩ sql before after := by
  intro sql h
  simp only [query] at h
  split_ifs at h with hvalues
  obtain ⟨written, hwritten, h⟩ := exists_of_bind_eq_ok h
  obtain ⟨f, hf, h⟩ := exists_of_bind_eq_ok h
  obtain ⟨p, hp, h⟩ := exists_of_bind_eq_ok h
  cases h
  have hbare : ∀ {os groups skip take}, standard.query ⟨some (.update entity vs), js, none, none,
      os, groups, distinct, fixed, skip, take, label, staged⟩
        = .ok ("UPDATE " ++ entity ++ " SET " ++ Text.joined ", " written ++ whereClause none) := by
    intro os groups skip take
    simp only [query, if_neg hvalues, hwritten]
    rfl
  refine ⟨"UPDATE " ++ entity ++ " SET " ++ Text.joined ", " written, "",
    showsCondition ?_ hbare (filter?_whereFilter? hf hp) (by simp)⟩
  exact hbare.trans (by simp [whereClause])

theorem ensures_delete (entity : String) :
    Ensures (standard.query ⟨some (.delete entity), js, condition, prepared, os, groups, distinct,
      fixed, skip, take, label, staged⟩) fun sql => ∃ before after, Query.ShowsCondition
        ⟨some (.delete entity), js, condition, prepared, os, groups, distinct, fixed, skip, take,
          label, staged⟩ sql before after := by
  intro sql h
  simp only [query] at h
  obtain ⟨f, hf, h⟩ := exists_of_bind_eq_ok h
  obtain ⟨p, hp, h⟩ := exists_of_bind_eq_ok h
  cases h
  have hbare : ∀ {os groups skip take}, standard.query ⟨some (.delete entity), js, none, none,
      os, groups, distinct, fixed, skip, take, label, staged⟩
        = .ok ("DELETE FROM " ++ entity ++ whereClause none) := by
    intro os groups skip take
    simp only [query]
    rfl
  refine ⟨"DELETE FROM " ++ entity, "",
    showsCondition ?_ hbare (filter?_whereFilter? hf hp) (by simp)⟩
  exact hbare.trans (by simp [whereClause])

end Statements

/-- A condition is the empty text exactly if the filter is void, and so a statement has a `WHERE`
clause exactly if the query has a condition that is not void. -/
theorem clause_iff :
    (∀ f sql, standard.filter f = .ok sql → (sql = "" ↔ f.IsVoid)) ∧
    ∀ q sql, q.TakesCondition → standard.query q = .ok sql →
      ∃ before after, q.ShowsCondition sql before after := by
  refine ⟨ensures_filter, fun q sql hq h => ?_⟩
  obtain ⟨statement, _⟩ := q
  cases statement with
  | none => exact hq.elim
  | some statement =>
    cases statement with
    | insert => exact hq.elim
    | select entity fs => exact ensures_select entity fs sql h
    | update entity vs => exact ensures_update entity vs sql h
    | delete entity => exact ensures_delete entity sql h

/-- Deletes the orders that a condition and one from earlier phases leave. -/
def deletion (condition prepared : Filter) : Query :=
  { (∅ : Query) with
    statement := some (.delete "orders")
    filter := some condition
    prepared := some prepared }

/-- Any name contains the empty text. -/
def anyName : Filter :=
  .logical .or [.function "name" "contains" [.value (.string "")] [], .logical .and []]

theorem clause_iff_anyName : (deletion anyName anyName).TakesCondition ∧ anyName.IsVoid ∧
    standard.query (deletion anyName anyName) = .ok "DELETE FROM orders" ∧
    ∃ before condition after, condition ≠ "" ∧ before ++ after = "DELETE FROM orders" ∧
      standard.query (deletion anyName (.compare "id" ⟨.eq, .value (.integer 1)⟩))
        = .ok (before ++ " WHERE " ++ condition ++ after) := by
  have hvoid : anyName.IsVoid := (clause_iff.1 anyName "" rfl).mp rfl
  have hquery : standard.query (deletion anyName (.compare "id" ⟨.eq, .value (.integer 1)⟩))
      = .ok "DELETE FROM orders WHERE ((id=1))" := rfl
  have hbare : standard.query (deletion anyName (.compare "id" ⟨.eq, .value (.integer 1)⟩)).unfiltered
      = .ok "DELETE FROM orders" := rfl
  obtain ⟨before, after, h⟩ := clause_iff.2 (deletion anyName _) _ trivial hquery
  have hshown : ∃ f ∈ (deletion anyName (.compare "id" ⟨.eq, .value (.integer 1)⟩)).whereFilter?,
      ¬ f.IsVoid := ⟨_, rfl, fun h => h.2.1⟩
  obtain ⟨condition, hne, htext⟩ := h.clause.mpr hshown
  refine ⟨trivial, hvoid, rfl, before, condition, after, hne, ?_, hquery.trans (congrArg _ htext)⟩
  exact Except.ok.inj (h.whole.symm.trans hbare)

end SqlWriter

end QueryCompiler
