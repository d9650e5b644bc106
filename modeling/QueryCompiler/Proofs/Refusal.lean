import QueryCompiler.Proofs.Leaves
import QueryCompiler.Proofs.Lowered
import QueryCompiler.Proofs.Registrations
import QueryCompiler.Sql.Writer

/-!
# When a filter of a closure has no SQL

The methods of closures, their arithmetic and the catalogue of functions fit together: whatever
function a closure's filter calls is in the catalogue and takes that many arguments
(`Catalogue.Offers`). What is left to fail are arguments that a function cannot use, and
`Filter.IsUnrenderable` says which these are.
-/

namespace QueryCompiler

/-- The catalogue has the function, and it takes so many arguments. -/
def Catalogue.Offers (func : String) (count : ℕ) : Prop :=
  ∃ signature ∈ builtins, signature.name = func ∧ count ≤ signature.maxArguments

instance (func : String) (count : ℕ) : Decidable (Catalogue.Offers func count) := by
  unfold Catalogue.Offers
  infer_instance

/-- A literal or a field. -/
def Operand.IsPlain : Operand → Prop
  | .value _ => True
  | .field f => ∃ text, f = .select text
  | .list _ | .query _ => False

/-- A comparison with a literal or a field. -/
def Test.IsPlain (t : Test) : Prop :=
  t.operand.IsPlain ∧ t.op ≠ .isIn ∧ t.op ≠ .notIn

/-- A leaf compares with literals and fields, and calls functions of the catalogue on them. -/
def Filter.IsPlain : Filter → Prop
  | .logical _ _ => True
  | .compare _ t => t.IsPlain
  | .function _ func args tests =>
    Catalogue.Offers func (args.length + 1) ∧ (∀ x ∈ args, x.IsPlain) ∧ ∀ t ∈ tests, t.IsPlain

/-- The functions that make a pattern of their argument. -/
def patternFunctions : List String := ["startswith", "endswith", "contains"]

/-- The arguments of a pattern function that cannot be rendered: the pattern is a field. -/
def UnfitPattern (args : List Operand) : Prop :=
  ∃ field, args[0]? = some (.field field)

/-- The arguments of `substring` that cannot be rendered: the start is no integer, or too large to
be counted from one, or there is a length that is neither an integer nor null. -/
def UnfitPosition (args : List Operand) : Prop :=
  (¬ ∃ n, n ≠ Int64.maxValue ∧ args[0]? = some (.value (.integer n))) ∨
    ∃ x, args[1]? = some x ∧ x ≠ .null ∧ ∀ n, x ≠ .value (.integer n)

/-- A call that has no SQL. -/
def Filter.IsUnrenderable : Filter → Prop
  | .function _ func args _ =>
    (func ∈ patternFunctions ∧ UnfitPattern args) ∨ (func = "substring" ∧ UnfitPosition args)
  | _ => False

/-! ## Calls of functions -/

/-- An argument is not fit for its function; their number is right. -/
def FunctionError.IsUnfit : FunctionError → Prop
  | .invalidArgument _ (.tooMany _ _) | .notFound _ => False
  | .invalidArgument _ _ => True

/-- What a function may ask of an argument is what the operand is. -/
structure ArgumentOf (x : Operand) (a : Argument) : Prop where
  isNull : a.isNull = true ↔ x = .null
  pattern : a.pattern = none ↔ x = .null ∨ ∃ field, x = .field field
  integer : ∀ n, a.integer = some n ↔ x = .value (.integer n)

theorem quotedBody?_mysql_string (s : String) :
    Argument.quotedBody? (Dialect.quoteEscaped s) ≠ none := by
  rw [Dialect.quoteEscaped, Argument.quotedBody?_quote]
  simp

theorem quotedBody?_mysql_dateTime (t : DateTime) :
    Argument.quotedBody? ("'" ++ t.statementText ++ "'") = some t.statementText := by
  have htext : "'" ++ t.statementText ++ "'"
      = String.ofList ('\'' :: t.statementText.toList ++ ['\'']) :=
    String.toList_inj.mp (by simp)
  rw [htext, Argument.quotedBody?_quote, String.ofList_toList]

namespace SqlWriter

theorem argumentOf_literalArgument (v : Value) :
    ArgumentOf (.value v) (standard.literalArgument v) := by
  have hstring := quotedBody?_mysql_string
  have hdateTime := quotedBody?_mysql_dateTime
  cases v <;> refine ⟨?_, ?_, ?_⟩ <;>
    simp_all [literalArgument, standard, Dialect.mysql, Dialect.literalWith, Argument.null,
      Argument.scalar, Argument.quoted, Operand.null]

/-- A plain field is written by its name. -/
theorem field_select (use : FieldUse) (text : String) :
    ∃ sql, standard.field use (.select text) = .ok sql := by
  unfold Field.select
  split
  · split_ifs
    · exact ⟨_, rfl⟩
    · exact ⟨_, rfl⟩
  · exact ⟨_, rfl⟩

theorem argument_of_isPlain {x : Operand} (h : x.IsPlain) :
    ∃ a, standard.argument x = .ok a ∧ ArgumentOf x a := by
  cases x with
  | value v => exact ⟨_, rfl, argumentOf_literalArgument v⟩
  | field f =>
    obtain ⟨text, rfl⟩ := h
    obtain ⟨sql, hsql⟩ := field_select .reference text
    refine ⟨.raw sql, ?_, ?_, ?_, ?_⟩
    · rw [argument, hsql]
      rfl
    all_goals simp [Argument.raw, Operand.null]
  | list | query => exact h.elim

theorem arguments_of_isPlain : ∀ {xs : List Operand}, (∀ x ∈ xs, x.IsPlain) →
    ∃ as, standard.arguments xs = .ok as ∧ List.Forall₂ ArgumentOf xs as
  | [], _ => ⟨[], rfl, .nil⟩
  | x :: xs, h => by
    obtain ⟨a, ha, hxa⟩ := argument_of_isPlain (h x List.mem_cons_self)
    obtain ⟨as, has, hxs⟩ := arguments_of_isPlain fun x hx => h x (List.mem_cons_of_mem _ hx)
    refine ⟨a :: as, ?_, .cons hxa hxs⟩
    rw [arguments, ha, has]
    rfl

theorem operand_of_isPlain {x : Operand} (h : x.IsPlain) : ∃ sql, standard.operand x = .ok sql := by
  cases x with
  | value v => exact ⟨_, rfl⟩
  | field f =>
    obtain ⟨text, rfl⟩ := h
    exact field_select .reference text
  | list | query => exact h.elim

theorem test_of_isPlain {t : Test} (h : t.IsPlain) (target : String) :
    ∃ sql, standard.test target t = .ok sql := by
  obtain ⟨op, x⟩ := t
  obtain ⟨hx, hin, hnotIn⟩ := h
  obtain ⟨sql, hsql⟩ := operand_of_isPlain hx
  cases op with
  | eq | ne =>
    simp only [test, hsql]
    split_ifs
    · exact ⟨_, rfl⟩
    · exact ⟨_, rfl⟩
  | gt | gte | lt | lte =>
    simp only [test, hsql]
    exact ⟨_, rfl⟩
  | isIn => exact absurd rfl hin
  | notIn => exact absurd rfl hnotIn

theorem tests_of_isPlain (target : String) : ∀ {ts : List Test}, (∀ t ∈ ts, t.IsPlain) →
    ∃ sqls, standard.tests target ts = .ok sqls
  | [], _ => ⟨[], rfl⟩
  | t :: ts, h => by
    obtain ⟨sql, hsql⟩ := test_of_isPlain (h t List.mem_cons_self) target
    obtain ⟨sqls, hsqls⟩ := tests_of_isPlain target fun t ht => h t (List.mem_cons_of_mem _ ht)
    refine ⟨sql :: sqls, ?_⟩
    rw [tests, hsql, hsqls]
    rfl

end SqlWriter

namespace Renderer

variable {name target : String} {xs : List Operand} {as : List Argument}

/-- What an argument behind the field is. -/
theorem present?_succ (target : String) (h : List.Forall₂ ArgumentOf xs as) : ∀ i : ℕ,
    (Argument.present? (.raw target :: as) (i + 1) = none ∧ (xs[i]? = none ∨ xs[i]? = some .null)) ∨
      ∃ x a, Argument.present? (.raw target :: as) (i + 1) = some a ∧ xs[i]? = some x ∧ x ≠ .null ∧
        ArgumentOf x a := by
  induction h with
  | nil => exact fun _ => .inl ⟨by simp [Argument.present?], .inl (by simp)⟩
  | @cons x a xs as hxa _ ih =>
    intro i
    cases i with
    | succ i => simpa [Argument.present?] using ih i
    | zero =>
      cases hnull : a.isNull with
      | true =>
        refine .inl ⟨by simp [Argument.present?, hnull], .inr ?_⟩
        rw [List.getElem?_cons_zero, hxa.isNull.mp hnull]
      | false =>
        refine .inr ⟨x, a, by simp [Argument.present?, hnull], rfl, ?_, hxa⟩
        rintro rfl
        rw [hxa.isNull.mpr rfl] at hnull
        cases hnull

theorem refuses_patternText {x : Operand} {a : Argument} (h : ArgumentOf x a) (hx : x ≠ .null) :
    Refuses (patternText name a) (∃ field, x = .field field) FunctionError.IsUnfit := by
  unfold patternText
  split
  · rename_i text htext
    refine .ok fun hfield => ?_
    rw [h.pattern.mpr (.inr hfield)] at htext
    cases htext
  · rename_i hnone
    exact .error ((h.pattern.mp hnone).resolve_left hx) trivial

/-- A pattern function looks at its pattern only. -/
theorem refuses_pattern (h : List.Forall₂ ArgumentOf xs as) {other : String}
    {f : Argument → String → Except FunctionError String} (hf : ∀ a text, ∃ sql, f a text = .ok sql) :
    Refuses (match Argument.present? (.raw target :: as) 0,
        Argument.present? (.raw target :: as) 1 with
      | some subject, some arg => do f subject (← patternText name arg)
      | _, _ => .ok other) (UnfitPattern xs) FunctionError.IsUnfit := by
  have hsubject : Argument.present? (.raw target :: as) 0 = some (.raw target) := rfl
  rw [hsubject]
  rcases present?_succ target h 0 with ⟨hnone, hxs⟩ | ⟨x, a, hsome, hxs, hx, hxa⟩
  · rw [hnone]
    refine .ok ?_
    rintro ⟨field, hfield⟩
    rw [hfield] at hxs
    rcases hxs with hxs | hxs <;> cases hxs
  · rw [hsome]
    have hunfit : (∃ field, x = .field field) ↔ UnfitPattern xs := by
      simp [UnfitPattern, hxs]
    refine ((refuses_patternText hxa hx).bind (q := False) fun text _ => ?_).iff
      (by rw [or_false, hunfit])
    obtain ⟨sql, hsql⟩ := hf (.raw target) text
    rw [hsql]
    exact .ok id

theorem int64?_add_one (n : Int64) : int64? (n.toInt + 1) = none ↔ n = Int64.maxValue := by
  have hle : n.toInt ≤ Int64.maxValue.toInt := Int64.toInt_le n
  have hge : Int64.minValue.toInt ≤ n.toInt := Int64.le_toInt n
  rw [← Int64.toInt_inj]
  unfold int64?
  split_ifs with hrange
  · simp only [false_iff]
    omega
  · simp only [true_iff]
    omega

/-- An argument is the integer that the operand is. -/
theorem integer_succ (target : String) (h : List.Forall₂ ArgumentOf xs as) (i : ℕ) (n : Int64) :
    (Argument.present? (.raw target :: as) (i + 1)).bind Argument.integer = some n ↔
      xs[i]? = some (.value (.integer n)) := by
  rcases present?_succ target h i with ⟨hnone, hxs | hxs⟩ | ⟨x, a, hsome, hxs, -, hxa⟩
  · simp [hnone, hxs]
  · simp [hnone, hxs, Operand.null]
  · simp [hsome, hxs, hxa.integer]

/-- The length is an integer, or there is none. -/
theorem refuses_length (h : List.Forall₂ ArgumentOf xs as) (opening : String) :
    Refuses (match Argument.present? (.raw target :: as) 2 with
      | none => return opening ++ ")"
      | some arg => match arg.integer with
        | none => .error (.invalidArgument name .lengthNotInteger)
        | some length => return if length = 0 then opening ++ ")"
            else opening ++ "," ++ toString length.toInt ++ ")")
      (∃ x, xs[1]? = some x ∧ x ≠ .null ∧ ∀ n, x ≠ .value (.integer n)) FunctionError.IsUnfit := by
  rcases present?_succ target h 1 with ⟨hnone, hlength⟩ | ⟨x, a, hsome, hlength, hx, hxa⟩
  · rw [hnone]
    refine .ok ?_
    rintro ⟨x, hx, hne, -⟩
    rw [hx] at hlength
    rcases hlength with hlength | hlength <;> cases hlength
    exact hne rfl
  · simp only [hsome]
    cases hvalue : a.integer with
    | none =>
      refine .error ⟨x, hlength, hx, ?_⟩ trivial
      rintro n rfl
      rw [(hxa.integer n).mpr rfl] at hvalue
      cases hvalue
    | some length =>
      refine .ok ?_
      rintro ⟨y, hy, -, hne⟩
      rw [hlength] at hy
      cases hy
      exact hne length ((hxa.integer length).mp hvalue)

theorem refuses_substringCall (h : List.Forall₂ ArgumentOf xs as) :
    Refuses (substringCall name (.raw target :: as)) (UnfitPosition xs) FunctionError.IsUnfit := by
  have hstart := integer_succ target h 0
  unfold substringCall
  cases hinteger : (Argument.present? (.raw target :: as) 1).bind Argument.integer with
  | none =>
    refine .error (.inl ?_) trivial
    rintro ⟨n, -, hn⟩
    rw [(hstart n).mpr hn] at hinteger
    cases hinteger
  | some start =>
    have hxs := (hstart start).mp hinteger
    simp only [pure_bind]
    cases hposition : int64? (start.toInt + 1) with
    | none =>
      refine .error (.inl ?_) trivial
      rintro ⟨n, hn, hn'⟩
      rw [hxs] at hn'
      cases hn'
      exact hn ((int64?_add_one start).mp hposition)
    | some position =>
      have hfit : ∃ n, n ≠ Int64.maxValue ∧ xs[0]? = some (.value (.integer n)) := by
        refine ⟨start, ?_, hxs⟩
        rintro rfl
        cases hposition
      refine (refuses_length h _).iff ?_
      simp [UnfitPosition, hfit]

end Renderer

namespace Catalogue

theorem find?_of_mem_builtins : ∀ signature ∈ builtins,
    standard.find? signature.name = some signature := by decide

/-- The names tell which functions make patterns and which one takes positions. -/
theorem renderer_iff_of_mem_builtins : ∀ signature ∈ builtins,
    (signature.renderer ∈ [.startsWith, .endsWith, .contains] ↔
      signature.name ∈ patternFunctions) ∧
    (signature.renderer = .substring ↔ signature.name = "substring") := by decide

variable {func target : String} {xs : List Operand} {as : List Argument}

theorem refuses_renderer {signature : Signature} (hmem : signature ∈ builtins)
    (h : List.Forall₂ ArgumentOf xs as) :
    Refuses (signature.renderer.render signature.name (.raw target :: as))
      ((signature.renderer ∈ [.startsWith, .endsWith, .contains] ∧ UnfitPattern xs) ∨
        (signature.renderer = .substring ∧ UnfitPosition xs)) FunctionError.IsUnfit := by
  have hserves := serves_of_mem_builtins signature hmem
  cases hrenderer : signature.renderer with
  | startsWith | endsWith =>
    refine Refuses.iff (Renderer.refuses_pattern h fun a text => ⟨_, rfl⟩) ?_
    simp
  | contains =>
    refine Refuses.iff (Renderer.refuses_pattern h fun a text => ⟨_, rfl⟩) ?_
    simp
  | substring =>
    refine Refuses.iff (Renderer.refuses_substringCall h) ?_
    simp
  | unary =>
    rw [hrenderer] at hserves
    obtain ⟨sqlName, hsqlName⟩ := Option.isSome_iff_exists.mp hserves
    rw [Renderer.render, hsqlName]
    exact .ok (by simp)
  | arithmetic =>
    rw [hrenderer] at hserves
    obtain ⟨sign, hsign⟩ := Option.isSome_iff_exists.mp hserves
    simp only [Renderer.render, hsign]
    split
    · exact .ok (by simp)
    · exact .ok (by simp)
  | concat | indexOf | round => exact .ok (by simp)

/-- A function that the catalogue has, with no more arguments than it takes, is refused only for
arguments that it cannot use. -/
theorem refuses_render (hoffers : Offers func (xs.length + 1)) (h : List.Forall₂ ArgumentOf xs as) :
    Refuses (standard.render func (.raw target :: as))
      ((func ∈ patternFunctions ∧ UnfitPattern xs) ∨ (func = "substring" ∧ UnfitPosition xs))
      FunctionError.IsUnfit := by
  obtain ⟨signature, hmem, rfl, hcount⟩ := hoffers
  obtain ⟨hpattern, hsubstring⟩ := renderer_iff_of_mem_builtins signature hmem
  have hfew : ¬ signature.maxArguments < (Argument.raw target :: as).length := by
    rw [List.length_cons, ← h.length_eq]
    omega
  rw [← hpattern, ← hsubstring, render, lookup, find?_of_mem_builtins signature hmem]
  change Refuses (if _ then _ else _) _ _
  rw [if_neg hfew]
  exact refuses_renderer hmem h

end Catalogue

/-! ## Filters -/

/-- An argument of a function is not fit; their number is right, and the function is known. -/
def SqlError.IsUnfit : SqlError → Prop
  | .function e => e.IsUnfit
  | _ => False

theorem SqlError.IsUnfit.kind {error : SqlError} (h : error.IsUnfit) :
    error.kind = .invalidArgument ∧ error.kind ≠ .unknownOperator ∧
      ∀ func limit count, error ≠ .function (.invalidArgument func (.tooMany limit count)) := by
  cases error with
  | function e =>
    cases e with
    | invalidArgument func fault =>
      refine ⟨rfl, by rintro ⟨⟩, ?_⟩
      rintro _ limit count ⟨⟩
      exact h
    | notFound name => exact h.elim
  | _ => exact h.elim

namespace SqlWriter

theorem refuses_function {field func : String} {args : List Operand} {tests : List Test}
    (h : (Filter.function field func args tests).IsPlain) :
    Refuses (standard.filter (.function field func args tests))
      (Filter.function field func args tests).IsUnrenderable SqlError.IsUnfit := by
  obtain ⟨hoffers, hargs, htests⟩ := h
  obtain ⟨as, has, hrel⟩ := arguments_of_isPlain hargs
  have hcall : Refuses (standard.call func (.raw field :: as))
      (Filter.function field func args tests).IsUnrenderable SqlError.IsUnfit :=
    (Catalogue.refuses_render hoffers hrel).mapError fun _ he => he
  rw [filter, has]
  refine (hcall.bind (q := False) fun sql _ => ?_).iff (by rw [or_false])
  split_ifs
  · exact .ok id
  · split
    · exact .ok id
    · rename_i t
      obtain ⟨text, htext⟩ := test_of_isPlain (htests t List.mem_cons_self) sql
      rw [htext]
      exact .ok id
    · obtain ⟨texts, htexts⟩ := tests_of_isPlain sql htests
      rw [htexts]
      exact .ok id

mutual

theorem refuses_filter : ∀ {f : Filter}, (∀ leaf ∈ f.leaves, leaf.IsPlain) →
    Refuses (standard.filter f) (∃ leaf ∈ f.leaves, leaf.IsUnrenderable) SqlError.IsUnfit
  | .logical connective operands, h => by
    rw [filter, Filter.leaves]
    rw [Filter.leaves] at h
    exact ((refuses_filters h).bind (q := False) fun _ _ => .ok id).iff (by rw [or_false])
  | .compare field t, h => by
    obtain ⟨sql, hsql⟩ := test_of_isPlain (h (.compare field t) (by simp [Filter.leaves])) field
    rw [filter, hsql]
    exact .ok (by simp [Filter.leaves, Filter.IsUnrenderable])
  | .function field func args tests, h => by
    rw [Filter.leaves] at h
    refine (refuses_function (h _ List.mem_cons_self)).iff ?_
    simp [Filter.leaves]

theorem refuses_filters : ∀ {fs : List Filter}, (∀ leaf ∈ Filter.allLeaves fs, leaf.IsPlain) →
    Refuses (standard.filters fs) (∃ leaf ∈ Filter.allLeaves fs, leaf.IsUnrenderable)
      SqlError.IsUnfit
  | [], _ => .ok (by simp [Filter.allLeaves])
  | f :: fs, h => by
    simp only [Filter.allLeaves, List.mem_append] at h
    have hf := refuses_filter fun leaf hleaf => h leaf (.inl hleaf)
    have hfs := refuses_filters fun leaf hleaf => h leaf (.inr hleaf)
    have hrest : ∀ sql, Refuses (do return sql :: (← standard.filters fs))
        (∃ leaf ∈ Filter.allLeaves fs, leaf.IsUnrenderable) SqlError.IsUnfit := fun sql =>
      (hfs.bind (q := False) fun _ _ => .ok id).iff (by rw [or_false])
    rw [filters]
    refine (hf.bind fun sql _ => hrest sql).iff ?_
    simp only [Filter.allLeaves, List.mem_append, or_and_right, exists_or]

end

end SqlWriter

/-! ## Filters of closures -/

namespace Closure

namespace Expression

mutual

/-- Every function that makes a condition is in the catalogue and takes that many arguments. -/
def CallsOffered : Expression → Prop
  | .logical _ operands => AllCallsOffered operands
  | .comparison left _ right => left.CallsOffered ∧ right.CallsOffered
  | .call func arguments => Catalogue.Offers func arguments.length
  | _ => True

def AllCallsOffered : List Expression → Prop
  | [] => True
  | e :: rest => e.CallsOffered ∧ AllCallsOffered rest

end

theorem isPlain_operand {e : Expression} {x : Operand} (h : e.operand = .ok x) : x.IsPlain := by
  cases e with
  | literal v =>
    cases h
    trivial
  | member name =>
    cases h
    exact ⟨name, rfl⟩
  | logical | comparison | arithmetic | call => cases h

theorem isPlain_mapM_operand : ∀ {arguments : List Expression} {xs : List Operand},
    arguments.mapM operand = .ok xs → xs.length = arguments.length ∧ ∀ x ∈ xs, x.IsPlain
  | [], xs, h => by
    cases h
    simp
  | e :: rest, xs, h => by
    rw [List.mapM_cons] at h
    obtain ⟨x, hx, h⟩ := exists_of_bind_eq_ok h
    obtain ⟨ys, hys, h⟩ := exists_of_bind_eq_ok h
    cases h
    obtain ⟨hlength, hplain⟩ := isPlain_mapM_operand hys
    refine ⟨by simp [hlength], ?_⟩
    simpa using ⟨isPlain_operand hx, hplain⟩

theorem offers_of_function? {op : Operator} {func : String} (h : op.function? = some func) :
    Catalogue.Offers func 2 := by
  cases op <;> cases h <;> decide

theorem isPlain_functionFilter {func : String} {arguments : List Expression} {tests : List Test}
    {f : Filter} (hoffers : Catalogue.Offers func arguments.length)
    (htests : ∀ t ∈ tests, t.IsPlain) (h : functionFilter func arguments tests = .ok f) :
    ∀ leaf ∈ f.leaves, leaf.IsPlain := by
  unfold functionFilter at h
  split at h
  · obtain ⟨xs, hxs, h⟩ := exists_of_bind_eq_ok h
    cases h
    obtain ⟨hlength, hplain⟩ := isPlain_mapM_operand hxs
    rw [List.length_cons, ← hlength] at hoffers
    simpa [Filter.leaves] using ⟨hoffers, hplain, htests⟩
  · cases h

theorem isPlain_subjectFilter {subject against : Expression} {op : ComparisonOp} {f : Filter}
    (hop : op ≠ .isIn ∧ op ≠ .notIn) (hsubject : subject.CallsOffered)
    (h : subjectFilter subject op against = .ok f) : ∀ leaf ∈ f.leaves, leaf.IsPlain := by
  cases subject with
  | member field =>
    obtain ⟨x, hx, h⟩ := exists_of_bind_eq_ok h
    cases h
    simpa [Filter.leaves] using ⟨isPlain_operand hx, hop⟩
  | arithmetic left inner right =>
    rw [subjectFilter] at h
    unfold arithmeticFilter at h
    split at h
    · cases h
    · split at h
      · cases h
      · rename_i func hfunc
        obtain ⟨x, hx, h⟩ := exists_of_bind_eq_ok h
        obtain ⟨y, hy, h⟩ := exists_of_bind_eq_ok h
        cases h
        have hargs : ∀ z ∈ [x], z.IsPlain := by simpa using isPlain_operand hx
        have htests : ∀ t ∈ [(⟨op, y⟩ : Test)], t.IsPlain := by
          simpa using ⟨isPlain_operand hy, hop⟩
        simpa [Filter.leaves] using ⟨offers_of_function? hfunc, hargs, htests⟩
  | call func arguments =>
    obtain ⟨x, hx, h⟩ := exists_of_bind_eq_ok h
    refine isPlain_functionFilter hsubject ?_ h
    simpa using ⟨isPlain_operand hx, hop⟩
  | logical | comparison | literal => cases h

theorem isPlain_comparisonFilter {left right : Expression} {op : ComparisonOp} {f : Filter}
    (hop : op ≠ .isIn ∧ op ≠ .notIn) (hleft : left.CallsOffered) (hright : right.CallsOffered)
    (h : comparisonFilter left op right = .ok f) : ∀ leaf ∈ f.leaves, leaf.IsPlain := by
  have hflip : op.flip ≠ .isIn ∧ op.flip ≠ .notIn := by
    cases op <;> simp_all [ComparisonOp.flip]
  unfold comparisonFilter at h
  split at h
  · exact isPlain_subjectFilter hflip hright h
  · exact isPlain_subjectFilter hflip hright h
  · exact isPlain_subjectFilter hflip hright h
  · exact isPlain_subjectFilter hop hleft h

mutual

theorem isPlain_toFilter : ∀ {e : Expression} {f : Filter}, e.CallsOffered → e.toFilter = .ok f →
    ∀ leaf ∈ f.leaves, leaf.IsPlain
  | .logical op operands, f, hoffered, h => by
    rw [toFilter] at h
    split at h
    · cases h
    · obtain ⟨fs, hfs, h⟩ := exists_of_bind_eq_ok h
      cases h
      exact isPlain_listToFilters hoffered hfs
  | .comparison left op right, f, hoffered, h => by
    rw [toFilter] at h
    split at h
    · cases h
    · rename_i relation hrelation
      have hop : relation ≠ .isIn ∧ relation ≠ .notIn := by
        cases op <;> cases hrelation <;> decide
      exact isPlain_comparisonFilter hop hoffered.1 hoffered.2 h
  | .call func arguments, f, hoffered, h => by
    rw [toFilter] at h
    refine isPlain_functionFilter hoffered ?_ h
    simp [Test.IsPlain, Operand.IsPlain]
  | .arithmetic _ _ _, _, _, h => by cases h
  | .member _, _, _, h => by cases h
  | .literal _, _, _, h => by cases h

theorem isPlain_listToFilters : ∀ {es : List Expression} {fs : List Filter},
    AllCallsOffered es → listToFilters es = .ok fs → ∀ leaf ∈ Filter.allLeaves fs, leaf.IsPlain
  | [], _, _, h => by
    cases h
    simp [Filter.allLeaves]
  | e :: rest, fs, hoffered, h => by
    rw [listToFilters] at h
    obtain ⟨f, hf, h⟩ := exists_of_bind_eq_ok h
    obtain ⟨gs, hgs, h⟩ := exists_of_bind_eq_ok h
    cases h
    intro leaf hleaf
    rcases List.mem_append.mp hleaf with hleaf | hleaf
    · exact isPlain_toFilter hoffered.1 hf leaf hleaf
    · exact isPlain_listToFilters hoffered.2 hgs leaf hleaf

end

end Expression

/-- Every method stands for a function of the catalogue that takes all its arguments. -/
theorem offers_of_mem_standardMethods : ∀ method ∈ standardMethods,
    Catalogue.Offers method.function method.most := by
  decide

theorem length_functionArguments {method : Method} {arguments es : List Expression}
    (h : functionArguments method arguments = .ok es) : es.length = arguments.length := by
  unfold functionArguments at h
  split at h
  · split_ifs at h
    · obtain ⟨length, -, h⟩ := exists_of_bind_eq_ok h
      cases h
      rfl
    · cases h
      rfl
  · cases h
    rfl

theorem callsOffered_standardMethod {name : String} {arguments : List Expression} {e : Expression}
    (h : standardMethod name arguments = .ok (some e)) : e.CallsOffered := by
  unfold standardMethod at h
  split at h
  · cases h
  · rename_i method hmethod
    split_ifs at h with hcount
    · obtain ⟨es, hes, h⟩ := exists_of_bind_eq_ok h
      cases h
      obtain ⟨signature, hmem, hname, hmost⟩ :=
        offers_of_mem_standardMethods method (List.mem_of_find?_eq_some hmethod)
      refine ⟨signature, hmem, hname, ?_⟩
      rw [length_functionArguments hes]
      omega

theorem callsOffered_of_lowers {resolver : Resolver} {parameters : List String} {node : Node}
    {e : Expression}
    (hmethod : ∀ name es e, resolver.method name es = .ok (some e) → e.CallsOffered)
    (h : Lowers resolver parameters node e) : e.CallsOffered := by
  induction h with
  | logical _ _ _ hleft hright => exact ⟨hleft, hright, trivial⟩
  | binary _ _ _ h hleft hright =>
    unfold binaryExpression Expression.ofArithmetic Expression.ofComparison at h
    split_ifs at h
    · cases h
      trivial
    · cases h
      exact ⟨hleft, hright⟩
  | field | literal => trivial
  | negative h =>
    obtain ⟨v, rfl⟩ := exists_literal_of_negated h
    trivial
  | call h => exact hmethod _ _ _ h

/-- A filter of a closure has SQL unless one of its calls has an argument that the function cannot
use. Its functions are known, and none of them has too many arguments. -/
theorem exists_error_filter_iff {resolver : Resolver}
    (hresolver : resolver = .standard ∨ resolver = .identity) {parameters : List String}
    {node : Node} {e : Expression} {f : Filter} (hlower : lower resolver parameters node = .ok e)
    (hfilter : e.toFilter = .ok f) :
    (∀ error, SqlWriter.standard.filter f = .error error →
      error.kind = .invalidArgument ∧ error.kind ≠ .unknownOperator ∧
        ∀ func limit count, error ≠ .function (.invalidArgument func (.tooMany limit count))) ∧
    ((∃ error, SqlWriter.standard.filter f = .error error) ↔
      ∃ leaf ∈ f.leaves, leaf.IsUnrenderable) := by
  have hmethod : ∀ name es e, resolver.method name es = .ok (some e) → e.CallsOffered := by
    intro name es e h
    rcases hresolver with rfl | rfl
    · exact callsOffered_standardMethod h
    · cases h
  have hplain := Expression.isPlain_toFilter (callsOffered_of_lowers hmethod (lowers_of_lower hlower)) hfilter
  have hrefuses := SqlWriter.refuses_filter hplain
  refine ⟨?_, hrefuses.exists_error_iff⟩
  intro error herror
  exact (hrefuses.of_error herror).kind

/-- A sum that is compared, and a text whose beginning is asked for in another field. -/
def fieldPattern : Node :=
  .logical "&&"
    (some (.binary ">" (some (.binary "+"
      (some (.member false (.identifier "x") (.identifier "total"))) (some (.literal (.integer 1) "1"))))
      (some (.literal (.integer 5) "5"))))
    (some (.call (.member false (.member false (.identifier "x") (.identifier "name"))
      (.identifier "startsWith")) [.member false (.identifier "x") (.identifier "prefix")]))

def fieldPatternFilter : Filter :=
  .conjunction [.function "total" "add" [.value (.integer 1)] [⟨.gt, .value (.integer 5)⟩],
    .function "name" "startswith" [.field (.name "prefix")] [⟨.eq, .value (.bool true)⟩]]

theorem exists_error_filter_fieldPattern :
    ∃ e, lower .standard ["x"] fieldPattern = .ok e ∧ e.toFilter = .ok fieldPatternFilter ∧
      ∃ error, SqlWriter.standard.filter fieldPatternFilter = .error error ∧
        error.kind = .invalidArgument := by
  let e : Expression := .logical .and
    [.comparison (.arithmetic (.member "total") .add (.literal (.integer 1))) .gt
      (.literal (.integer 5)),
      .call "startswith" [.member "name", .member "prefix"]]
  have hlower : lower .standard ["x"] fieldPattern = .ok e := rfl
  have hfilter : e.toFilter = .ok fieldPatternFilter := rfl
  obtain ⟨hkind, herror⟩ := exists_error_filter_iff (.inl rfl) hlower hfilter
  have hunfit : ∃ leaf ∈ fieldPatternFilter.leaves, leaf.IsUnrenderable := by
    refine ⟨_, List.mem_cons_of_mem _ List.mem_cons_self, .inl ⟨by decide, .name "prefix", rfl⟩⟩
  obtain ⟨error, h⟩ := herror.mpr hunfit
  exact ⟨e, hlower, hfilter, error, h, (hkind error h).1⟩

end Closure

end QueryCompiler
