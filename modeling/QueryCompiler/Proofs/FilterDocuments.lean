import QueryCompiler.Proofs.ClosureLiterals
import QueryCompiler.Proofs.Decoded
import QueryCompiler.Proofs.Leaves
import QueryCompiler.Proofs.Lowered
import QueryCompiler.Proofs.RoundTrip

/-!
# Filters of closures as documents

A filter that was made of a closure's text is written into a document and read back. Literals,
functions and tests always come back as they were. The field of a leaf is a key of the document, and
a key that begins with `$` is refused: names in closures may begin so. Hence the filter comes back
exactly if no leaf is about such a field (`Closure.ofJson_toFilter`).
-/

namespace QueryCompiler

/-- A function that is not taken for something else where a condition is expected. -/
def Filter.IsFunctionName (func : String) : Prop :=
  func ≠ "" ∧ func ∉ Filter.otherKeys

instance (func : String) : Decidable (Filter.IsFunctionName func) := by
  unfold Filter.IsFunctionName
  infer_instance

namespace Filter

/-- All but the name of the leaf's field can be said in a document. -/
def IsStatable : Filter → Prop
  | .logical _ _ => True
  | .compare _ t => t.Obeys .representable
  | .function _ func args tests =>
    IsFunctionName func ∧ (tests.map Test.op).Nodup ∧ Operand.AllObey .representable args ∧
      Test.AllObey .representable tests

/-- The leaf is about a field whose name is reserved. -/
def IsReserved : Filter → Prop
  | .logical _ _ => False
  | .compare field _ => isReserved field = true
  | .function field _ _ _ => isReserved field = true

/-- What a document can represent comes back from it. -/
theorem ofJson_toJson_of_representable {f : Filter} (h : f.Obeys .representable) :
    ofJson f.toJson = .ok f := by
  have hdecoded := Obeys.mono Law.decoded_weaker h
  have hplain := Obeys.mono Law.plainTables_weaker h
  have hwhole := Obeys.mono Law.fixing_truncated_weaker (Obeys.mono Law.wholeDates_weaker h)
  exact (ofJson_toJson hdecoded f).mpr ⟨hplain, mapValues_eq_self hwhole⟩

/-- A reserved key is refused where a field is expected, also that of a connective, which asks for
an array. -/
theorem ofJson_reserved {key : String} (h : isReserved key = true) (members : List (String × Json)) :
    ∃ e, ofJson (.single key (.object members)) = .error e := by
  cases hconnective : Connective.ofKey? key with
  | some connective => exact ⟨.notCombination, by simp [Json.single, ofJson, ofMembers, hconnective]⟩
  | none => exact ⟨.unknownOperator key, by simp [Json.single, ofJson, ofMembers, hconnective, h]⟩

theorem yields_ofJson_leaf {f : Filter} (hleaf : f.IsLeaf) (h : f.IsStatable) :
    Yields (ofJson f.toJson) (¬ f.IsReserved) f := by
  cases f with
  | logical => exact hleaf.elim
  | compare field t =>
    cases hfield : isReserved field with
    | true =>
      obtain ⟨e, he⟩ := ofJson_reserved hfield [t.toMember]
      rw [toJson, he]
      exact Yields.error (fun hp => hp hfield) _
    | false =>
      have hobeys : Obeys .representable (.compare field t) := ⟨hfield, h⟩
      rw [ofJson_toJson_of_representable hobeys]
      exact (Yields.ok _).iff (by simp [IsReserved, hfield])
  | function field func args tests =>
    obtain ⟨⟨hne, hkey⟩, hnodup, hargs, htests⟩ := h
    cases hfield : isReserved field with
    | true =>
      obtain ⟨e, he⟩ := ofJson_reserved hfield [("$" ++ func,
        .array (Operand.toJsonAll args ++ [lastItem tests (Test.toMembers tests)]))]
      change Yields (ofJson (.single field (.object _))) _ _
      rw [he]
      exact Yields.error (fun hp => hp hfield) _
    | false =>
      have hobeys : Obeys .representable (.function field func args tests) :=
        ⟨⟨hfield, hne, hkey, hnodup⟩, hargs, htests⟩
      rw [ofJson_toJson_of_representable hobeys]
      exact (Yields.ok _).iff (by simp [IsReserved, hfield])

mutual

theorem yields_ofJson : ∀ {f : Filter}, (∀ leaf ∈ f.leaves, leaf.IsStatable) →
    Yields (ofJson f.toJson) (∀ leaf ∈ f.leaves, ¬ leaf.IsReserved) f
  | .logical connective operands, h => by
    rw [toJson, ofJson_logical]
    exact (yields_ofJsonAll h).map _
  | .compare field t, h => by
    have hleaf : IsLeaf (.compare field t) := trivial
    rw [hleaf.leaves] at h
    exact (yields_ofJson_leaf hleaf (h _ List.mem_cons_self)).iff (by simp [leaves])
  | .function field func args tests, h => by
    have hleaf : IsLeaf (.function field func args tests) := trivial
    rw [hleaf.leaves] at h
    exact (yields_ofJson_leaf hleaf (h _ List.mem_cons_self)).iff (by simp [leaves])

theorem yields_ofJsonAll : ∀ {fs : List Filter}, (∀ leaf ∈ allLeaves fs, leaf.IsStatable) →
    Yields (ofJsonAll (toJsonAll fs)) (∀ leaf ∈ allLeaves fs, ¬ leaf.IsReserved) fs
  | [], _ => (Yields.ok _).iff (by simp [allLeaves])
  | f :: fs, h => by
    have hf := yields_ofJson fun leaf hleaf => h leaf (List.mem_append_left _ hleaf)
    have hfs := yields_ofJsonAll fun leaf hleaf => h leaf (List.mem_append_right _ hleaf)
    rw [toJsonAll, ofJsonAll]
    exact (hf.bind (hfs.map _)).iff (by simp [allLeaves, or_imp, forall_and])

end

end Filter

namespace Closure

namespace Expression

mutual

/-- Every literal can be said in a document, and no function is taken for something else there. -/
def IsStatable : Expression → Prop
  | .logical _ operands => AllStatable operands
  | .comparison left _ right | .arithmetic left _ right => left.IsStatable ∧ right.IsStatable
  | .member _ => True
  | .literal v => Law.representable.value v
  | .call func arguments => Filter.IsFunctionName func ∧ AllStatable arguments

def AllStatable : List Expression → Prop
  | [] => True
  | e :: rest => e.IsStatable ∧ AllStatable rest

end

end Expression

/-! ## From trees to expressions -/

section Lowering

open Expression (IsStatable AllStatable)

variable {resolver : Resolver} {parameters : List String}

theorem isStatable_memberField (node : Node) :
    Ensures (memberField resolver parameters node) IsStatable := by
  unfold memberField
  refine (Ensures.trivial _).bind fun path _ => ?_
  split_ifs
  · exact Ensures.error _
  · exact (Ensures.trivial _).bind fun name _ => Ensures.ok trivial

theorem isStatable_literalExpression {value : Json} (h : IsPlainLiteral value) :
    Ensures (literalExpression value) IsStatable := by
  unfold literalExpression
  split
  · rename_i v hv
    exact Ensures.ok (h v hv)
  · exact Ensures.error _

theorem isStatable_negated {value : Json} (h : IsPlainLiteral value) :
    Ensures (negated value) IsStatable := by
  refine (isStatable_literalExpression h).bind fun e he => ?_
  split
  · split
    · exact Ensures.ok ⟨trivial, trivial⟩
    · exact Ensures.error _
  · exact Ensures.ok ⟨isFinite_neg he.1, trivial⟩
  · exact Ensures.error _

theorem isStatable_ofLogical {op : Operator} {operands : List Expression}
    (h : AllStatable operands) : Ensures (Expression.ofLogical op operands) IsStatable :=
  Ensures.ite (fun _ => Ensures.ok h) fun _ => Ensures.error _

theorem isStatable_binaryExpression {left right : Expression} {op : Operator}
    (hleft : left.IsStatable) (hright : right.IsStatable) :
    Ensures (binaryExpression left op right) IsStatable := by
  unfold binaryExpression Expression.ofArithmetic Expression.ofComparison
  split_ifs
  · exact Ensures.ok ⟨hleft, hright⟩
  · exact Ensures.ok ⟨hleft, hright⟩
  · exact Ensures.error _

theorem ensures_orExpressionError {α : Type} {P : α → Prop} {r : Except ExpressionError α}
    (h : Ensures r P) : Ensures (orExpressionError r) P := by
  rcases r with e | a
  · exact Ensures.error _
  · exact Ensures.ok (h a rfl)

/-- What a method becomes can be said in a document, if its arguments can. -/
def MethodsStatable (resolver : Resolver) : Prop :=
  ∀ name es, AllStatable es →
    Ensures (resolver.method name es) fun result => ∀ e ∈ result, e.IsStatable

theorem isStatable_methodCall (hmethod : MethodsStatable resolver) {name : String}
    {es : List Expression} (hes : AllStatable es) :
    Ensures (methodCall resolver name es) IsStatable := by
  refine (hmethod name es hes).bind fun result hresult => ?_
  cases result with
  | none => exact Ensures.error _
  | some e => exact Ensures.ok (hresult e rfl)

mutual

/-- A tree whose literals are plain becomes an expression that can be said in a document. -/
theorem isStatable_lower (hmethod : MethodsStatable resolver) : ∀ {node : Node},
    node.HasPlainLiterals → Ensures (lower resolver parameters node) IsStatable
  | .logical operator (some left) (some right), ⟨hleft, hright⟩ => by
    rw [lower]
    split
    · exact Ensures.error _
    · refine (isStatable_lower hmethod hleft).bind fun l hl => ?_
      refine (isStatable_lower hmethod hright).bind fun r hr => ?_
      exact ensures_orExpressionError (isStatable_ofLogical ⟨hl, hr, trivial⟩)
  | .binary operator (some left) (some right), ⟨hleft, hright⟩ => by
    rw [lower]
    split
    · exact Ensures.error _
    · refine (isStatable_lower hmethod hleft).bind fun l hl => ?_
      refine (isStatable_lower hmethod hright).bind fun r hr => ?_
      exact ensures_orExpressionError (isStatable_binaryExpression hl hr)
  | .member _ _ _, _ => by
    rw [lower]
    exact isStatable_memberField _
  | .identifier _, _ => by
    rw [lower]
    exact isStatable_memberField _
  | .literal _ _, h => by
    rw [lower]
    exact isStatable_literalExpression h
  | .unary operator operand leads, h => by
    by_cases hminus : ∃ value raw, operator = "-" ∧ operand = .literal value raw
    · obtain ⟨value, raw, rfl, rfl⟩ := hminus
      rw [lower]
      exact isStatable_negated h
    · rw [lower]
      · exact Ensures.error _
      · exact fun value raw hoperator hoperand => hminus ⟨value, raw, hoperator, hoperand⟩
  | .call (.member computed object property) arguments, ⟨⟨hobject, _⟩, harguments⟩ => by
    obtain ⟨name, rfl⟩ | hother : (∃ name, object = .identifier name) ∨
        ∀ name, object = .identifier name → False := by
      cases object <;> simp
    · rw [lower]
      refine (Ensures.trivial _).bind fun method _ => Ensures.ite (fun _ => ?_) fun _ => ?_
      · exact (allStatable_lowerAll hmethod harguments).bind fun es hes =>
          isStatable_methodCall hmethod hes
      · refine (isStatable_memberField _).bind fun receiver hreceiver => ?_
        exact (allStatable_lowerAll hmethod harguments).bind fun es hes =>
          isStatable_methodCall hmethod ⟨hreceiver, hes⟩
    · rw [lower]
      · refine (Ensures.trivial _).bind fun method _ => ?_
        refine (isStatable_lower hmethod hobject).bind fun receiver hreceiver => ?_
        exact (allStatable_lowerAll hmethod harguments).bind fun es hes =>
          isStatable_methodCall hmethod ⟨hreceiver, hes⟩
      · exact hother
  | .call (.identifier _) arguments, ⟨_, harguments⟩ => by
    rw [lower]
    exact (allStatable_lowerAll hmethod harguments).bind fun es hes =>
      isStatable_methodCall hmethod hes
  | .call (.logical ..) _, _ | .call (.binary ..) _, _ | .call (.unary ..) _, _
  | .call (.call ..) _, _ | .call (.literal ..) _, _ => Ensures.error _
  | .logical _ none _, _ | .logical _ (some _) none, _ => Ensures.error _
  | .binary _ none _, _ | .binary _ (some _) none, _ => by
    rw [lower]
    split <;> exact Ensures.error _

theorem allStatable_lowerAll (hmethod : MethodsStatable resolver) : ∀ {nodes : List Node},
    Node.AllPlain nodes → Ensures (lowerAll resolver parameters nodes) AllStatable
  | [], _ => Ensures.ok trivial
  | node :: nodes, ⟨hnode, hnodes⟩ => by
    rw [lowerAll]
    exact (isStatable_lower hmethod hnode).bind fun e he =>
      (allStatable_lowerAll hmethod hnodes).bind fun es hes => Ensures.ok ⟨he, hes⟩

end

theorem isFunctionName_of_mem_standardMethods : ∀ method ∈ standardMethods,
    Filter.IsFunctionName method.function := by
  decide

theorem isStatable_lengthBetween (start stop : Expression) :
    Ensures (lengthBetween start stop) IsStatable := by
  unfold lengthBetween
  split
  · split
    · exact Ensures.ok ⟨trivial, trivial⟩
    · exact Ensures.error _
  · exact Ensures.error _

theorem allStatable_functionArguments {method : Method} {arguments : List Expression}
    (h : AllStatable arguments) : Ensures (functionArguments method arguments) AllStatable := by
  unfold functionArguments
  split
  · split_ifs
    · exact (isStatable_lengthBetween _ _).bind fun length hlength =>
        Ensures.ok ⟨h.1, h.2.1, hlength, trivial⟩
    · exact Ensures.ok h
  · exact Ensures.ok h

theorem isStatable_standardMethod (name : String) {es : List Expression} (h : AllStatable es) :
    Ensures (standardMethod name es) fun result => ∀ e ∈ result, e.IsStatable := by
  unfold standardMethod
  split
  · exact Ensures.ok (by simp)
  · rename_i method hmethod
    have hname := isFunctionName_of_mem_standardMethods method (List.mem_of_find?_eq_some hmethod)
    split_ifs
    · exact Ensures.error _
    · refine (allStatable_functionArguments h).bind fun arguments harguments => Ensures.ok ?_
      rintro e ⟨⟩
      exact ⟨hname, harguments⟩

end Lowering

/-! ## From expressions to filters -/

namespace Expression

theorem obeys_select (text : String) : (Field.select text).Obeys .representable := by
  have h := Field.obeys_select text
  cases hfield : Field.select text with
  | name | qualified =>
    rw [hfield] at h
    exact h
  | _ =>
    unfold Field.select at hfield
    split at hfield
    · split_ifs at hfield
    · cases hfield

theorem obeys_operand {e : Expression} (h : e.IsStatable) :
    Ensures e.operand (Operand.Obeys .representable) := by
  cases e with
  | literal v => exact Ensures.ok ⟨trivial, h⟩
  | member name => exact Ensures.ok ⟨trivial, obeys_select name⟩
  | logical | comparison | arithmetic | call => exact Ensures.error _

theorem allObey_mapM_operand : ∀ {es : List Expression}, AllStatable es →
    Ensures (es.mapM operand) (Operand.AllObey .representable)
  | [], _ => Ensures.ok trivial
  | e :: es, ⟨he, hes⟩ => by
    rw [List.mapM_cons]
    exact (obeys_operand he).bind fun x hx =>
      (allObey_mapM_operand hes).bind fun xs hxs => Ensures.ok ⟨hx, hxs⟩

/-- Every leaf of the filter can be said in a document but for its field's name. -/
def LeavesStatable (f : Filter) : Prop :=
  ∀ leaf ∈ f.leaves, leaf.IsStatable

theorem leavesStatable_leaf {f : Filter} (hleaf : f.IsLeaf) (h : f.IsStatable) : LeavesStatable f := by
  intro leaf hmem
  rw [hleaf.leaves, List.mem_singleton] at hmem
  rwa [hmem]

theorem isFunctionName_of_function? {op : Operator} {func : String}
    (h : op.function? = some func) : Filter.IsFunctionName func := by
  cases op <;> cases h <;> decide

theorem leavesStatable_functionFilter {func : String} {arguments : List Expression} {t : Test}
    (hfunc : Filter.IsFunctionName func) (harguments : AllStatable arguments)
    (ht : t.Obeys .representable) : Ensures (functionFilter func arguments [t]) LeavesStatable := by
  unfold functionFilter
  split
  · exact (allObey_mapM_operand harguments.2).bind fun xs hxs => Ensures.ok <|
      leavesStatable_leaf trivial ⟨hfunc, List.nodup_singleton _, hxs, ht, trivial⟩
  · exact Ensures.error _

theorem isStatable_of_subjectOf? {left right argument : Expression} {op : Operator} {field : String}
    (hleft : left.IsStatable) (hright : right.IsStatable)
    (h : subjectOf? left op right = some (field, argument)) : argument.IsStatable := by
  unfold subjectOf? at h
  split at h
  · cases h
    exact hright
  · split_ifs at h
    cases h
    exact hleft
  · cases h

theorem leavesStatable_arithmeticFilter {left right against : Expression} {op : Operator}
    {test : ComparisonOp} (hleft : left.IsStatable) (hright : right.IsStatable)
    (hagainst : against.IsStatable) :
    Ensures (arithmeticFilter left op right test against) LeavesStatable := by
  unfold arithmeticFilter
  split
  · exact Ensures.error _
  · rename_i hsubject
    have hargument := isStatable_of_subjectOf? hleft hright hsubject
    split
    · exact Ensures.error _
    · rename_i func hfunc
      exact (obeys_operand hargument).bind fun x hx =>
        (obeys_operand hagainst).bind fun y hy => Ensures.ok <| leavesStatable_leaf trivial
          ⟨isFunctionName_of_function? hfunc, List.nodup_singleton _, ⟨hx, trivial⟩, hy, trivial⟩

theorem leavesStatable_subjectFilter {subject against : Expression} {op : ComparisonOp}
    (hsubject : subject.IsStatable) (hagainst : against.IsStatable) :
    Ensures (subjectFilter subject op against) LeavesStatable := by
  cases subject with
  | member field =>
    exact (obeys_operand hagainst).bind fun x hx => Ensures.ok (leavesStatable_leaf trivial hx)
  | arithmetic left inner right =>
    exact leavesStatable_arithmeticFilter hsubject.1 hsubject.2 hagainst
  | call func arguments =>
    exact (obeys_operand hagainst).bind fun x hx =>
      leavesStatable_functionFilter hsubject.1 hsubject.2 hx
  | logical | comparison | literal => exact Ensures.error _

theorem leavesStatable_comparisonFilter {left right : Expression} {op : ComparisonOp}
    (hleft : left.IsStatable) (hright : right.IsStatable) :
    Ensures (comparisonFilter left op right) LeavesStatable := by
  unfold comparisonFilter
  split
  · exact leavesStatable_subjectFilter hright hleft
  · exact leavesStatable_subjectFilter hright hleft
  · exact leavesStatable_subjectFilter hright hleft
  · exact leavesStatable_subjectFilter hleft hright

mutual

theorem leavesStatable_toFilter : ∀ {e : Expression}, e.IsStatable →
    Ensures e.toFilter LeavesStatable
  | .logical op operands, h => by
    rw [toFilter]
    split
    · exact Ensures.error _
    · exact (leavesStatable_listToFilters h).bind fun fs hfs => Ensures.ok hfs
  | .comparison left op right, h => by
    rw [toFilter]
    split
    · exact Ensures.error _
    · exact leavesStatable_comparisonFilter h.1 h.2
  | .call func arguments, h => by
    rw [toFilter]
    exact leavesStatable_functionFilter h.1 h.2 ⟨trivial, trivial, trivial⟩
  | .arithmetic _ _ _, _ => Ensures.error _
  | .member _, _ => Ensures.error _
  | .literal _, _ => Ensures.error _

theorem leavesStatable_listToFilters : ∀ {es : List Expression}, AllStatable es →
    Ensures (listToFilters es) fun fs => ∀ leaf ∈ Filter.allLeaves fs, leaf.IsStatable
  | [], _ => Ensures.ok (by simp [Filter.allLeaves])
  | e :: rest, h => by
    rw [listToFilters]
    refine (leavesStatable_toFilter h.1).bind fun f hf =>
      (leavesStatable_listToFilters h.2).bind fun fs hfs => Ensures.ok fun leaf hleaf => ?_
    rcases List.mem_append.mp hleaf with hleaf | hleaf
    · exact hf leaf hleaf
    · exact hfs leaf hleaf

end

end Expression

theorem methodsStatable {resolver : Resolver}
    (hresolver : resolver = .standard ∨ resolver = .identity) : MethodsStatable resolver := by
  intro name es h
  rcases hresolver with rfl | rfl
  · exact isStatable_standardMethod name h
  · exact Ensures.ok (by simp)

/-- A filter of a closure's text comes back from its document, or is refused there: it is refused
exactly if some leaf is about a field whose name begins with `$`. -/
theorem ofJson_toFilter {resolver : Resolver}
    (hresolver : resolver = .standard ∨ resolver = .identity) {text : String} {closure : Closure}
    {f : Filter} (htext : ofText text = .ok closure) (hfilter : closure.toFilter resolver = .ok f) :
    (Filter.ofJson f.toJson = .ok f ↔ ∀ leaf ∈ f.leaves, ¬ leaf.IsReserved) ∧
      ((∃ e, Filter.ofJson f.toJson = .error e) ↔ ∃ leaf ∈ f.leaves, leaf.IsReserved) := by
  have hlower : Ensures (closure.toExpression resolver) Expression.IsStatable :=
    isStatable_lower (methodsStatable hresolver) (hasPlainLiterals_ofText text closure htext)
  have hleaves : Ensures (closure.toFilter resolver) Expression.LeavesStatable :=
    hlower.bind fun e he => ensures_orExpressionError (Expression.leavesStatable_toFilter he)
  have hyields := Filter.yields_ofJson (hleaves f hfilter)
  exact ⟨by simp [hyields f], by simp [hyields.exists_error_iff]⟩

/-- Orders above a total, by customers whose names begin with a letter. -/
def orderCondition : Closure where
  parameters := ["x"]
  body := .logical "&&"
    (some (.binary ">" (some (.member false (.identifier "x") (.identifier "total")))
      (some (.unary "-" (.literal (.integer 5) "5") true))))
    (some (.call (.member false (.member false (.identifier "x") (.identifier "name"))
      (.identifier "startsWith")) [.literal (.string "a") "'a'"]))

def orderFilter : Filter :=
  .conjunction [.compare "total" ⟨.gt, .value (.integer (-5))⟩,
    .function "name" "startswith" [.value (.string "a")] [⟨.eq, .value (.bool true)⟩]]

theorem ofJson_toFilter_orderFilter :
    ofText "x => x.total > -5 && x.name.startsWith('a')" = .ok orderCondition ∧
      orderCondition.toFilter .standard = .ok orderFilter ∧
      Filter.ofJson orderFilter.toJson = .ok orderFilter := by
  have htext : ofText "x => x.total > -5 && x.name.startsWith('a')" = .ok orderCondition := by cbv
  have hfilter : orderCondition.toFilter .standard = .ok orderFilter := rfl
  refine ⟨htext, hfilter, (ofJson_toFilter (.inl rfl) htext hfilter).1.mpr ?_⟩
  intro leaf hleaf
  simp only [orderFilter, Filter.conjunction, Filter.leaves, Filter.allLeaves, List.append_nil,
    List.cons_append, List.nil_append, List.mem_cons, List.not_mem_nil, or_false] at hleaf
  rcases hleaf with rfl | rfl
  · exact (by decide : ¬ isReserved "total" = true)
  · exact (by decide : ¬ isReserved "name" = true)

/-- A name that begins with `$` is a field of a closure, whose filter does not come back. -/
theorem error_ofJson_toFilter_reservedName :
    ofText "$x == 1" = .ok ⟨[], .binary "==" (some (.identifier "$x"))
        (some (.literal (.integer 1) "1"))⟩ ∧
      toFilter .identity ⟨[], .binary "==" (some (.identifier "$x"))
        (some (.literal (.integer 1) "1"))⟩ = .ok (.compare "$x" ⟨.eq, .value (.integer 1)⟩) ∧
      Filter.ofJson (Filter.compare "$x" ⟨.eq, .value (.integer 1)⟩).toJson
        = .error (.unknownOperator "$x") :=
  ⟨by cbv, rfl, rfl⟩

end Closure

end QueryCompiler
