import Mathlib.Tactic.SplitIfs
import QueryCompiler.Proofs.Leaves
import QueryCompiler.Proofs.Lowered

/-!
# What conditions mean

An interpretation says what fields, literals, functions and comparisons mean. It gives a truth value
to filters (`Filter.holds?`) and to the trees of closures (`Closure.Node.truth?`), of which neither
looks at the other. The expressions over fields stand in between, and get one too.

Lowering a closure keeps the truth value (`Closure.holds?_lower`): where a literal and a field change
places the comparison is turned around, and only a sum or a product may change its operands.
-/

namespace QueryCompiler

/-- What the words of conditions mean, as elements of `α`. -/
structure Interpretation (α : Type) where
  row : String → α
  literal : Value → α
  function : String → List α → α
  compare : ComparisonOp → α → α → Bool
  add_comm : ∀ a b, function "add" [a, b] = function "add" [b, a]
  mul_comm : ∀ a b, function "mul" [a, b] = function "mul" [b, a]
  compare_flip : ∀ op a b, compare op a b = compare op.flip b a

variable {α : Type} (I : Interpretation α)

/-! ## Filters -/

/-- The value of an operand. A list or a query has none. -/
def Operand.value? : Operand → Option α
  | .value v => some (I.literal v)
  | .field f => f.filterText?.map I.row
  | .list _ | .query _ => none

/-- The comparison of a value with the operand of a test. -/
def Test.holds? (a : α) (t : Test) : Option Bool :=
  (t.operand.value? I).map (I.compare t.op a)

/-- The truth value of a leaf: that of its comparison, or whether its function passes every test. -/
def Filter.leafHolds? : Filter → Option Bool
  | .logical _ _ => none
  | .compare field t => t.holds? I (I.row field)
  | .function field func args tests => do
    let values ← args.mapM (Operand.value? I)
    let results ← tests.mapM (Test.holds? I (I.function func (I.row field :: values)))
    return results.all id

/-- The truth value of a filter. -/
def Filter.holds? (f : Filter) : Option Bool :=
  f.truth? (Filter.leafHolds? I)

/-! ## Trees of closures -/

/-- The number with the other sign, if there is one. -/
def Value.negative? : Value → Option Value
  | .integer n => if n = Int64.minValue then none else some (.integer (-n))
  | .float x => some (.float (-x))
  | _ => none

namespace Closure

/-- The comparisons by their signs. -/
def comparisonSigns : List (String × ComparisonOp) :=
  [("==", .eq), ("===", .eq), ("!=", .ne), ("!==", .ne), (">", .gt), (">=", .gte), ("<", .lt),
   ("<=", .lte)]

/-- The functions that do the arithmetic, by their signs. -/
def arithmeticSigns : List (String × String) :=
  [("+", "add"), ("-", "sub"), ("*", "mul"), ("/", "div"), ("%", "mod")]

/-- The connectives by their signs. -/
def connectiveSigns : List (String × Connective) :=
  [("&&", .and), ("||", .or)]

namespace Node

/-- The name of a property. -/
def property? : Node → Option String
  | .identifier name => some name
  | .literal (.string name) _ => some name
  | _ => none

/-- The names of a chain of members, of which the first is that of the object it begins with. -/
def chain? : Node → Option (List String)
  | .identifier name => some [name]
  | .member _ object property => do return (← chain? object) ++ [← property.property?]
  | _ => none

/-- The literal that a tree writes, a minus in front of a number included. -/
def literal? : Node → Option Value
  | .literal value _ => (Value.ofJson value).toOption
  | .unary operator (.literal value _) _ =>
    if operator = "-" then (Value.ofJson value).toOption.bind Value.negative? else none
  | _ => none

/-- The value of a tree. A chain of members is the field that its last property names. -/
def value? : Node → Option α
  | .binary operator (some left) (some right) => do
    return I.function (← arithmeticSigns.lookup operator) [← value? left, ← value? right]
  | node => (node.literal?.map I.literal).or ((node.chain?.bind List.getLast?).map I.row)

/-- The truth value of a tree. -/
def truth? : Node → Option Bool
  | .logical operator (some left) (some right) => do
    return (← connectiveSigns.lookup operator).holds [← truth? left, ← truth? right]
  | .binary operator (some left) (some right) => do
    return I.compare (← comparisonSigns.lookup operator) (← left.value? I) (← right.value? I)
  | _ => none

end Node

/-! ## Expressions over fields -/

namespace Expression

mutual

/-- The value of an expression. -/
def value? : Expression → Option α
  | .member name => some (I.row name)
  | .literal v => some (I.literal v)
  | .arithmetic left op right => do
    return I.function (← op.function?) [← value? left, ← value? right]
  | .call function arguments => (values? arguments).map (I.function function)
  | _ => none

def values? : List Expression → Option (List α)
  | [] => some []
  | e :: rest => do return (← value? e) :: (← values? rest)

end

mutual

/-- The truth value of an expression. A function on its own is compared with the literal that is
true. -/
def truth? : Expression → Option Bool
  | .logical op operands => do return (← op.connective?).holds (← truths? operands)
  | .comparison left op right => do
    return I.compare (← op.comparison?) (← left.value? I) (← right.value? I)
  | .call function arguments => do
    return I.compare .eq (I.function function (← values? I arguments)) (I.literal (.bool true))
  | _ => none

def truths? : List Expression → Option (List Bool)
  | [] => some []
  | e :: rest => do return (← truth? e) :: (← truths? rest)

end

end Expression

end Closure

/-! ## From expressions to filters -/

theorem Field.filterText?_select (text : String) : (Field.select text).filterText? = some text := by
  unfold select
  split
  · rename_i entity column hsplit
    split_ifs with hempty
    · rfl
    · obtain ⟨htext, -⟩ := Text.splitFirst?_append hsplit
      have hjoined : String.ofList entity ++ "." ++ String.ofList column = text := by
        rw [← String.toList_inj]
        simp [htext]
      rw [filterText?, hjoined]
  · rfl

namespace Closure

namespace Expression

variable {I}

theorem value?_operand {e : Expression} {x : Operand} (h : e.operand = .ok x) :
    ∃ a, x.value? I = some a ∧ e.value? I = some a := by
  cases e with
  | literal v =>
    cases h
    exact ⟨I.literal v, rfl, rfl⟩
  | member name =>
    cases h
    exact ⟨I.row name, by rw [Operand.value?, Field.filterText?_select]; rfl, rfl⟩
  | logical | comparison | arithmetic | call => cases h

theorem values?_mapM_operand : ∀ {arguments : List Expression} {xs : List Operand},
    arguments.mapM operand = .ok xs →
      ∃ as, xs.mapM (Operand.value? I) = some as ∧ values? I arguments = some as
  | [], xs, h => by
    cases h
    exact ⟨[], rfl, rfl⟩
  | e :: rest, xs, h => by
    rw [List.mapM_cons] at h
    obtain ⟨x, hx, h⟩ := exists_of_bind_eq_ok h
    obtain ⟨ys, hys, h⟩ := exists_of_bind_eq_ok h
    cases h
    obtain ⟨a, hxa, hea⟩ := value?_operand (I := I) hx
    obtain ⟨as, hysas, hrest⟩ := values?_mapM_operand hys
    refine ⟨a :: as, ?_, ?_⟩
    · simp [List.mapM_cons, hxa, hysas]
    · simp [values?, hea, hrest]

/-- The filter compares the values of the two expressions. -/
def Compares (I : Interpretation α) (f : Filter) (e : Expression) (op : ComparisonOp)
    (against : Expression) : Prop :=
  ∃ a b, e.value? I = some a ∧ against.value? I = some b ∧
    f.holds? I = some (I.compare op a b)

theorem holds?_function {field func : String} {xs : List Operand} {op : ComparisonOp} {x : Operand}
    {as : List α} {b : α} (hxs : xs.mapM (Operand.value? I) = some as) (hx : x.value? I = some b) :
    (Filter.function field func xs [⟨op, x⟩]).holds? I
      = some (I.compare op (I.function func (I.row field :: as)) b) := by
  simp [Filter.holds?, Filter.truth?, Filter.leafHolds?, Test.holds?, hxs, hx]

theorem compares_functionFilter {func : String} {arguments : List Expression} {op : ComparisonOp}
    {against : Expression} {x : Operand} {f : Filter} (hx : against.operand = .ok x)
    (h : functionFilter func arguments [⟨op, x⟩] = .ok f) :
    Compares I f (.call func arguments) op against := by
  unfold functionFilter at h
  split at h
  · rename_i field rest
    obtain ⟨xs, hxs, h⟩ := exists_of_bind_eq_ok h
    cases h
    obtain ⟨as, hxsas, hrest⟩ := values?_mapM_operand (I := I) hxs
    obtain ⟨b, hxb, hb⟩ := value?_operand (I := I) hx
    refine ⟨I.function func (I.row field :: as), b, ?_, hb, holds?_function hxsas hxb⟩
    simp [value?, values?, hrest]
  · cases h

/-- The field and the argument stand in the order of the arithmetic, or in the other order where
that makes no difference. -/
theorem value?_subjectOf {left right argument : Expression} {op : Operator} {field func : String}
    {a : α} (hsubject : subjectOf? left op right = some (field, argument))
    (hfunc : op.function? = some func) (hargument : argument.value? I = some a) :
    (arithmetic left op right).value? I = some (I.function func [I.row field, a]) := by
  unfold subjectOf? at hsubject
  split at hsubject
  · cases hsubject
    simp [value?, hfunc, hargument]
  · split_ifs at hsubject with hcommutes
    cases hsubject
    -- Only sums and products commute, and their functions are symmetric.
    have hswap : I.function func [a, I.row field] = I.function func [I.row field, a] := by
      cases op with
      | add => cases hfunc; exact I.add_comm _ _
      | mul => cases hfunc; exact I.mul_comm _ _
      | eq | ne | gt | ge | lt | le | sub | div | mod | and | or => cases hcommutes
    simp [value?, hfunc, hargument, hswap]
  · cases hsubject

theorem compares_arithmeticFilter {left right against : Expression} {op : Operator}
    {test : ComparisonOp} {f : Filter} (h : arithmeticFilter left op right test against = .ok f) :
    Compares I f (.arithmetic left op right) test against := by
  unfold arithmeticFilter at h
  split at h
  · cases h
  · rename_i field argument hsubject
    split at h
    · cases h
    · rename_i func hfunc
      obtain ⟨x, hx, h⟩ := exists_of_bind_eq_ok h
      obtain ⟨y, hy, h⟩ := exists_of_bind_eq_ok h
      cases h
      obtain ⟨a, hxa, ha⟩ := value?_operand (I := I) hx
      obtain ⟨b, hyb, hb⟩ := value?_operand (I := I) hy
      refine ⟨_, b, value?_subjectOf hsubject hfunc ha, hb, ?_⟩
      exact holds?_function (by simp [hxa]) hyb

theorem compares_subjectFilter {subject against : Expression} {op : ComparisonOp} {f : Filter}
    (h : subjectFilter subject op against = .ok f) : Compares I f subject op against := by
  cases subject with
  | member field =>
    obtain ⟨x, hx, h⟩ := exists_of_bind_eq_ok h
    cases h
    obtain ⟨b, hxb, hb⟩ := value?_operand (I := I) hx
    refine ⟨I.row field, b, rfl, hb, ?_⟩
    simp [Filter.holds?, Filter.truth?, Filter.leafHolds?, Test.holds?, hxb]
  | arithmetic left inner right => exact compares_arithmeticFilter h
  | call func arguments =>
    obtain ⟨x, hx, h⟩ := exists_of_bind_eq_ok h
    exact compares_functionFilter hx h
  | logical | comparison | literal => cases h

theorem compares_comparisonFilter {left right : Expression} {op : ComparisonOp} {f : Filter}
    (h : comparisonFilter left op right = .ok f) : Compares I f left op right := by
  have hflip : subjectFilter right op.flip left = .ok f → Compares I f left op right := by
    intro h
    obtain ⟨b, a, hb, ha, hf⟩ := compares_subjectFilter (I := I) h
    exact ⟨a, b, ha, hb, by rw [hf, I.compare_flip op a b]⟩
  unfold comparisonFilter at h
  split at h
  · exact hflip h
  · exact hflip h
  · exact hflip h
  · exact compares_subjectFilter h

mutual

/-- The filter of an expression has the expression's truth value. -/
theorem holds?_toFilter : ∀ {e : Expression} {f : Filter}, e.toFilter = .ok f →
    ∃ b, f.holds? I = some b ∧ e.truth? I = some b
  | .logical op operands, f, h => by
    rw [toFilter] at h
    split at h
    · cases h
    · rename_i connective hconnective
      obtain ⟨fs, hfs, h⟩ := exists_of_bind_eq_ok h
      cases h
      obtain ⟨bs, hfsbs, hbs⟩ := truths?_listToFilters hfs
      refine ⟨connective.holds bs, ?_, ?_⟩
      · simp [Filter.holds?, Filter.truth?, hfsbs]
      · simp [truth?, hconnective, hbs]
  | .comparison left op right, f, h => by
    rw [toFilter] at h
    split at h
    · cases h
    · rename_i relation hrelation
      obtain ⟨a, b, ha, hb, hf⟩ := compares_comparisonFilter (I := I) h
      refine ⟨_, hf, ?_⟩
      simp [truth?, hrelation, ha, hb]
  | .call func arguments, f, h => by
    rw [toFilter] at h
    have htrue : (Expression.literal (.bool true)).operand = .ok (.value (.bool true)) := rfl
    obtain ⟨a, b, ha, hb, hf⟩ := compares_functionFilter (I := I) htrue h
    cases hb
    refine ⟨_, hf, ?_⟩
    obtain ⟨as, has, rfl⟩ := Option.map_eq_some_iff.mp ha
    simp [truth?, has]
  | .arithmetic _ _ _, _, h => by cases h
  | .member _, _, h => by cases h
  | .literal _, _, h => by cases h

theorem truths?_listToFilters : ∀ {es : List Expression} {fs : List Filter},
    listToFilters es = .ok fs →
      ∃ bs, Filter.truths? (Filter.leafHolds? I) fs = some bs ∧ truths? I es = some bs
  | [], _, h => by
    cases h
    exact ⟨[], rfl, rfl⟩
  | e :: rest, fs, h => by
    rw [listToFilters] at h
    obtain ⟨f, hf, h⟩ := exists_of_bind_eq_ok h
    obtain ⟨gs, hgs, h⟩ := exists_of_bind_eq_ok h
    cases h
    obtain ⟨b, hfb, hb⟩ := holds?_toFilter hf
    obtain ⟨bs, hgsbs, hbs⟩ := truths?_listToFilters hgs
    refine ⟨b :: bs, ?_, ?_⟩
    · rw [Filter.holds?] at hfb
      simp [Filter.truths?, hfb, hgsbs]
    · simp [truths?, hb, hbs]

end

end Expression

/-! ## From trees to expressions -/

theorem Operator.ofBinary?_eq_some {sign : String} {op : Operator} (h : ofBinary? sign = some op) :
    arithmeticSigns.lookup sign = op.function? ∧ comparisonSigns.lookup sign = op.comparison? := by
  unfold ofBinary? at h
  split at h <;> cases h <;> exact ⟨rfl, rfl⟩

theorem Operator.ofLogical?_eq_some {sign : String} {op : Operator} (h : ofLogical? sign = some op) :
    connectiveSigns.lookup sign = op.connective? := by
  unfold ofLogical? at h
  split at h <;> cases h <;> rfl

theorem property?_of_propertyName {node : Node} {name : String} (h : propertyName node = .ok name) :
    node.property? = some name := by
  unfold propertyName at h
  split at h <;> cases h <;> rfl

theorem chain?_of_memberPath {parameters : List String} : ∀ {node : Node} {path : List String},
    memberPath parameters node = .ok path →
      ∃ names, node.chain? = some names ∧ (path ≠ [] → names.getLast? = path.getLast?)
  | .member _ object property, path, h => by
    rw [memberPath] at h
    obtain ⟨name, hname, h⟩ := exists_of_bind_eq_ok h
    obtain ⟨before, hbefore, h⟩ := exists_of_bind_eq_ok h
    cases h
    obtain ⟨names, hnames, -⟩ := chain?_of_memberPath hbefore
    refine ⟨names ++ [name], ?_, ?_⟩
    · simp [Node.chain?, hnames, property?_of_propertyName hname]
    · simp
  | .identifier name, path, h => by
    rw [memberPath] at h
    refine ⟨[name], rfl, ?_⟩
    split_ifs at h
    · cases h
      simp
    · cases h
      simp
  | .logical _ _ _, _, h => by cases h
  | .binary _ _ _, _, h => by cases h
  | .unary _ _ _, _, h => by cases h
  | .call _ _, _, h => by cases h
  | .literal _ _, _, h => by cases h

/-- A chain of members is the field that its last property names. -/
theorem value?_truth?_of_chain? {node : Node} {names : List String} {name : String}
    (hchain : node.chain? = some names) (hlast : names.getLast? = some name) :
    node.value? I = some (I.row name) ∧ node.truth? I = none := by
  cases node with
  | member | identifier =>
    simp [Node.value?, Node.truth?, Node.literal?, hchain, hlast]
  | logical | binary | unary | call | literal => cases hchain

theorem getLast?_of_lastMember {path : List String} {name : String}
    (h : lastMember .ok path = .ok name) : path.getLast? = some name := by
  unfold lastMember at h
  split at h
  · rename_i last hlast
    cases h
    exact hlast
  · cases h

theorem negative?_of_int64? {n m : Int64} (h : int64? (-n.toInt) = some m) :
    Value.negative? (.integer n) = some (.integer m) := by
  unfold int64? at h
  split_ifs at h with hrange
  cases h
  have hne : n ≠ Int64.minValue := by
    rintro rfl
    exact absurd hrange (by decide)
  rw [Value.negative?, if_neg hne, Int64.ofInt_neg, Int64.ofInt_toInt]

theorem exists_of_negated {value : Json} {e : Expression} (h : negated value = .ok e) :
    ∃ v, e = .literal v ∧ (Value.ofJson value).toOption.bind Value.negative? = some v := by
  unfold negated at h
  obtain ⟨literal, hliteral, h⟩ := exists_of_bind_eq_ok h
  obtain ⟨v, rfl, hv⟩ := exists_of_literalExpression hliteral
  rw [hv]
  cases v with
  | integer n =>
    dsimp only at h
    split at h
    · rename_i m hm
      cases h
      exact ⟨.integer m, rfl, negative?_of_int64? hm⟩
    · cases h
  | float x =>
    cases h
    exact ⟨.float (-x), rfl, rfl⟩
  | null | bool | string | dateTime => cases h

section Lowering

variable {I} {parameters : List String}

theorem value?_binaryExpression {sign : String} {left right : Node} {l r e : Expression}
    {op : Operator} (hop : Operator.ofBinary? sign = some op)
    (hl : l.value? I = left.value? I) (hr : r.value? I = right.value? I)
    (h : binaryExpression l op r = .ok e) :
    e.value? I = (Node.binary sign left right).value? I
      ∧ e.truth? I = (Node.binary sign left right).truth? I := by
  obtain ⟨hfunc, hrelation⟩ := Operator.ofBinary?_eq_some hop
  unfold binaryExpression at h
  split_ifs at h with hclass
  · rw [Expression.ofArithmetic, if_pos hclass] at h
    cases h
    have hnone : op.comparison? = none := by cases op <;> first | rfl | cases hclass
    simp [Expression.value?, Node.value?, Expression.truth?, Node.truth?, hfunc, hrelation, hl, hr,
      hnone]
  · unfold Expression.ofComparison at h
    split_ifs at h with hcomparison
    cases h
    have hnone : op.function? = none := by cases op <;> first | rfl | cases hcomparison
    simp [Expression.value?, Node.value?, Expression.truth?, Node.truth?, hfunc, hrelation, hl, hr,
      hnone]

/-- The expression of a tree has the tree's value and its truth value. -/
theorem value?_truth?_of_lowers {node : Node} {e : Expression}
    (h : Lowers .identity parameters node e) :
    e.value? I = node.value? I ∧ e.truth? I = node.truth? I := by
  induction h with
  | logical hop _ _ hleft hright =>
    have hconnective := Operator.ofLogical?_eq_some hop
    simp [Expression.value?, Node.value?, Node.literal?, Node.chain?, Expression.truth?,
      Expression.truths?, Node.truth?, hconnective, hleft.2, hright.2, Option.bind_assoc]
  | binary hop _ _ h hleft hright => exact value?_binaryExpression hop hleft.1 hright.1 h
  | @field node path name hpath hne hname =>
    obtain ⟨names, hchain, hlast⟩ := chain?_of_memberPath hpath
    obtain ⟨hvalue, htruth⟩ :=
      value?_truth?_of_chain? (I := I) hchain ((hlast hne).trans (getLast?_of_lastMember hname))
    rw [hvalue, htruth]
    exact ⟨rfl, rfl⟩
  | literal h =>
    simp [Expression.value?, Expression.truth?, Node.value?, Node.truth?, Node.literal?, h,
      Except.toOption]
  | negative h =>
    obtain ⟨v, rfl, hv⟩ := exists_of_negated h
    simp [Expression.value?, Expression.truth?, Node.value?, Node.truth?, Node.literal?, hv]
  | call h => cases h

end Lowering

/-- Lowering a closure keeps its meaning: the filter and the tree have one truth value, whatever
fields, literals, functions and comparisons mean. -/
theorem holds?_lower (I : Interpretation α) {parameters : List String} {node : Node}
    {e : Expression} {f : Filter} (hlower : lower .identity parameters node = .ok e)
    (hfilter : e.toFilter = .ok f) :
    ∃ b, f.holds? I = some b ∧ node.truth? I = some b := by
  obtain ⟨b, hf, he⟩ := Expression.holds?_toFilter (I := I) hfilter
  exact ⟨b, hf, (value?_truth?_of_lowers (lowers_of_lower hlower)).2.symm.trans he⟩

/-- Fields and literals as whole numbers; a field is as large as its name is long. -/
def wholeNumbers : Interpretation ℤ where
  row name := name.length
  literal
    | .integer n => n.toInt
    | _ => 0
  function
    | "add", [a, b] => a + b
    | "sub", [a, b] => a - b
    | "mul", [a, b] => a * b
    | "div", [a, b] => a / b
    | "mod", [a, b] => a % b
    | _, _ => 0
  compare
    | .eq, a, b | .isIn, a, b => a = b
    | .ne, a, b | .notIn, a, b => a ≠ b
    | .gt, a, b => b < a
    | .gte, a, b => b ≤ a
    | .lt, a, b => a < b
    | .lte, a, b => a ≤ b
  add_comm := Int.add_comm
  mul_comm := Int.mul_comm
  compare_flip op a b := by
    cases op <;> simp [ComparisonOp.flip, eq_comm]

/-- A literal in front of a sum in which a literal comes first, and two fields. -/
def longNames : Node :=
  .logical "&&"
    (some (.binary "<" (some (.unary "-" (.literal (.integer 3) "3") true))
      (some (.binary "+" (some (.literal (.integer 2) "2"))
        (some (.member false (.identifier "x") (.identifier "price")))))))
    (some (.binary "!==" (some (.member false (.member false (.identifier "x") (.identifier "item"))
      (.identifier "name"))) (some (.member false (.identifier "x") (.identifier "label")))))

/-- The sum is named for its field, the comparison is turned around. -/
def longNamesFilter : Filter :=
  .conjunction [.function "price" "add" [.value (.integer 2)] [⟨.gt, .value (.integer (-3))⟩],
    .compare "name" ⟨.ne, .field (.name "label")⟩]

theorem holds?_lower_longNames :
    ∃ e, lower .identity ["x"] longNames = .ok e ∧ e.toFilter = .ok longNamesFilter ∧
      ∃ b, longNamesFilter.holds? wholeNumbers = some b ∧ longNames.truth? wholeNumbers = some b := by
  let e : Expression := .logical .and
    [.comparison (.literal (.integer (-3))) .lt
      (.arithmetic (.literal (.integer 2)) .add (.member "price")),
      .comparison (.member "name") .ne (.member "label")]
  have hlower : lower .identity ["x"] longNames = .ok e := rfl
  have hfilter : e.toFilter = .ok longNamesFilter := rfl
  exact ⟨e, hlower, hfilter, holds?_lower wholeNumbers hlower hfilter⟩

end Closure

end QueryCompiler
