import QueryCompiler.Proofs.Normalisation
import QueryCompiler.Proofs.Unmistakable

/-!
# Queries of one document say one statement

What a document does not tell of its query does not show in the statement, so that queries with one
document say the same (`SqlWriter.query_eq`). Both queries are taken apart together, and where the
document tells how the second one is built the recursion goes on with what the first is made of.
-/

namespace QueryCompiler

namespace SqlWriter

theorem literal_eq {v v' : Value} (h : v.IsFinite) (h' : v'.IsFinite) (heq : v.toJson = v'.toJson) :
    standard.dialect.literal v = standard.dialect.literal v' := by
  rw [← standard_literal_truncated v, Value.truncated_eq_of_toJson_eq h h' heq,
    standard_literal_truncated]

theorem literalArgument_eq {v v' : Value} (h : v.IsFinite) (h' : v'.IsFinite)
    (heq : v.toJson = v'.toJson) : standard.literalArgument v = standard.literalArgument v' := by
  rw [← standard_literalArgument_truncated v, Value.truncated_eq_of_toJson_eq h h' heq,
    standard_literalArgument_truncated]

theorem field_of_toJson_name {f : Field} {text : String} (h : f.IsUnmistakable)
    (heq : f.toJson = .single "$name" (.string text)) (use : FieldUse) :
    standard.field use f = .ok text := by
  rcases Field.eq_name_or_qualified h heq with rfl | ⟨entity, column, rfl, rfl⟩
  · rfl
  · rfl

-- Each of the parts that are compared could be the one that gets smaller, and there are too many
-- choices to try them all, so that every theorem says that it is the first.
mutual

theorem field_eq (use : FieldUse) : ∀ (f : Field) {f' : Field}, f.Obeys .unmistakable →
    f'.Obeys .unmistakable → f.toJson = f'.toJson → standard.field use f = standard.field use f'
  | .name _, _, _, h', heq => (field_of_toJson_name h'.isUnmistakable heq.symm use).symm
  | .qualified _ _, _, _, h', heq => (field_of_toJson_name h'.isUnmistakable heq.symm use).symm
  | .labelled _ _, _, h, _, heq => by
    rw [Field.eq_labelled h heq.symm]
  | .aggregate _ _ _, _, _, _, heq => by
    rw [Field.eq_aggregate heq.symm]
  | .function _ _ args, _, h, h', heq => by
    obtain ⟨args', rfl, hargs⟩ := Field.eq_function heq.symm
    rw [field, field, arguments_eq args h.2 h'.2 hargs.symm]
  | .constant v none, _, h, h', heq => by
    obtain ⟨v', rfl, hv⟩ := Field.eq_constant h'.isUnmistakable heq.symm
    rw [field, field, literal_eq h.2 h'.2 hv.symm]
  | .constant v (some _), _, h, h', heq => by
    obtain ⟨v', rfl, hv⟩ := Field.eq_namedConstant heq.symm
    rw [field, field, literal_eq h.2 h'.2 hv.symm]
termination_by structural f => f

theorem fields_eq (use : FieldUse) : ∀ (fs : List Field) {fs' : List Field},
    Field.AllObey .unmistakable fs → Field.AllObey .unmistakable fs' →
      Field.toJsonAll fs = Field.toJsonAll fs' → standard.fields use fs = standard.fields use fs'
  | [], [], _, _, _ => rfl
  | f :: rest, f' :: rest', h, h', heq => by
    obtain ⟨hfirst, hrest⟩ := List.cons.inj heq
    rw [fields, fields, field_eq use f h.1 h'.1 hfirst, fields_eq use rest h.2 h'.2 hrest]
termination_by structural fs => fs

theorem operand_eq : ∀ (x : Operand) {x' : Operand}, x.Obeys .unmistakable →
    x'.Obeys .unmistakable → x.toJson = x'.toJson → standard.operand x = standard.operand x'
  | .value _, _, h, h', heq => by
    obtain ⟨v', rfl, hv⟩ := Operand.eq_value h' heq.symm
    rw [operand, operand, literal_eq h.2 h'.2 hv.symm]
  | .field f, _, h, h', heq => by
    obtain ⟨f', rfl, hf⟩ := Operand.eq_field h' h.2.isUnmistakable heq.symm
    rw [operand, operand, field_eq .reference f h.2 h'.2 hf.symm]
  | .list xs, _, h, h', heq => by
    obtain ⟨xs', rfl, hxs⟩ := Operand.eq_list h' heq.symm
    rw [operand, operand, operands_eq xs h.2 h'.2 hxs.symm]
  | .query q, _, h, h', heq => by
    obtain ⟨q', rfl, hq⟩ := Operand.eq_query h' heq.symm
    rw [operand, operand, query_eq q h.2 h'.2 hq.symm]
termination_by structural x => x

theorem operands_eq : ∀ (xs : List Operand) {xs' : List Operand}, Operand.AllObey .unmistakable xs →
    Operand.AllObey .unmistakable xs' → Operand.toJsonAll xs = Operand.toJsonAll xs' →
      standard.operands xs = standard.operands xs'
  | [], [], _, _, _ => rfl
  | x :: rest, x' :: rest', h, h', heq => by
    obtain ⟨hfirst, hrest⟩ := List.cons.inj heq
    rw [operands, operands, operand_eq x h.1 h'.1 hfirst, operands_eq rest h.2 h'.2 hrest]
termination_by structural xs => xs

theorem argument_eq : ∀ (x : Operand) {x' : Operand}, x.Obeys .unmistakable →
    x'.Obeys .unmistakable → x.toJson = x'.toJson → standard.argument x = standard.argument x'
  | .value _, _, h, h', heq => by
    obtain ⟨v', rfl, hv⟩ := Operand.eq_value h' heq.symm
    rw [argument, argument, literalArgument_eq h.2 h'.2 hv.symm]
  | .field f, _, h, h', heq => by
    obtain ⟨f', rfl, hf⟩ := Operand.eq_field h' h.2.isUnmistakable heq.symm
    rw [argument, argument, field_eq .reference f h.2 h'.2 hf.symm]
  | .list xs, _, h, h', heq => by
    obtain ⟨xs', rfl, hxs⟩ := Operand.eq_list h' heq.symm
    rw [argument, argument, operands_eq xs h.2 h'.2 hxs.symm]
  | .query q, _, h, h', heq => by
    obtain ⟨q', rfl, hq⟩ := Operand.eq_query h' heq.symm
    rw [argument, argument, query_eq q h.2 h'.2 hq.symm]
termination_by structural x => x

theorem arguments_eq : ∀ (xs : List Operand) {xs' : List Operand},
    Operand.AllObey .unmistakable xs → Operand.AllObey .unmistakable xs' →
      Operand.toJsonAll xs = Operand.toJsonAll xs' → standard.arguments xs = standard.arguments xs'
  | [], [], _, _, _ => rfl
  | x :: rest, x' :: rest', h, h', heq => by
    obtain ⟨hfirst, hrest⟩ := List.cons.inj heq
    rw [arguments, arguments, argument_eq x h.1 h'.1 hfirst, arguments_eq rest h.2 h'.2 hrest]
termination_by structural xs => xs

theorem inList_eq : ∀ (x : Operand) {x' : Operand}, x.Obeys .unmistakable →
    x'.Obeys .unmistakable → x.toJson = x'.toJson → standard.inList x = standard.inList x'
  | .value _, _, _, h', heq => by
    obtain ⟨v', rfl, -⟩ := Operand.eq_value h' heq.symm
    rfl
  | .field _, _, h, h', heq => by
    obtain ⟨f', rfl, -⟩ := Operand.eq_field h' h.2.isUnmistakable heq.symm
    rfl
  | .list xs, _, h, h', heq => by
    obtain ⟨xs', rfl, hxs⟩ := Operand.eq_list h' heq.symm
    have hsql := operands_eq xs h.2 h'.2 hxs.symm
    rcases xs with _ | ⟨x, rest⟩ <;> rcases xs' with _ | ⟨x', rest'⟩
    · rfl
    · cases hxs
    · cases hxs
    · simp only [inList, hsql]
  | .query q, _, h, h', heq => by
    obtain ⟨q', rfl, hq⟩ := Operand.eq_query h' heq.symm
    rw [inList, inList, Query.isSelect_eq hq.symm, query_eq q h.2 h'.2 hq.symm]
termination_by structural x => x

theorem test_eq (target : String) : ∀ (t : Test) {t' : Test}, t.Obeys .unmistakable →
    t'.Obeys .unmistakable → t.toMember = t'.toMember →
      standard.test target t = standard.test target t'
  | ⟨op, x⟩, ⟨op', x'⟩, h, h', heq => by
    simp only [Test.toMember, Prod.mk.injEq] at heq
    obtain ⟨hkey, hx⟩ := heq
    obtain rfl := ComparisonOp.key_injective hkey
    have hnull := Operand.isNull_eq h h' hx
    have hsql := operand_eq x h h' hx
    have hlist := inList_eq x h h' hx
    cases op <;> simp only [test, hnull, hsql, hlist]
termination_by structural t => t

theorem tests_eq (target : String) : ∀ (ts : List Test) {ts' : List Test},
    Test.AllObey .unmistakable ts → Test.AllObey .unmistakable ts' →
      Test.toMembers ts = Test.toMembers ts' → standard.tests target ts = standard.tests target ts'
  | [], [], _, _, _ => rfl
  | t :: rest, t' :: rest', h, h', heq => by
    obtain ⟨hfirst, hrest⟩ := List.cons.inj heq
    rw [tests, tests, test_eq target t h.1 h'.1 hfirst, tests_eq target rest h.2 h'.2 hrest]
termination_by structural ts => ts

theorem filter_eq : ∀ (f : Filter) {f' : Filter}, f.Obeys .unmistakable →
    f'.Obeys .unmistakable → f.toJson = f'.toJson → standard.filter f = standard.filter f'
  | .logical _ fs, _, h, h', heq => by
    obtain ⟨fs', rfl, hfs⟩ := Filter.eq_logical heq.symm
    rw [filter, filter, filters_eq fs h.2 h'.2 hfs.symm]
  | .compare field t, f', h, h', heq => by
    obtain ⟨t', rfl, ht⟩ := Filter.eq_compare h'.isUnmistakable heq.symm
    rw [filter, filter, test_eq field t h.2 h'.2 ht.symm]
  | .function _ _ args ts, _, h, h', heq => by
    obtain ⟨args', ts', rfl, hargs, hlast⟩ := Filter.eq_function h.1.1 heq.symm
    have hmembers := Test.toMembers_eq_of_lastItem h.1.2 h'.1.2 hlast.symm
    rw [filter, filter, arguments_eq args h.2.1 h'.2.1 hargs.symm]
    refine bind_congr fun args => bind_congr fun sql => ?_
    have htests := tests_eq sql ts h.2.2 h'.2.2 hmembers
    -- One test stands by itself in the statement, and of none there is another condition.
    rcases ts with _ | ⟨t, _ | ⟨_, _⟩⟩ <;> rcases ts' with _ | ⟨t', _ | ⟨_, _⟩⟩
    case nil.nil => rfl
    case cons.nil.cons.nil =>
      simp only [test_eq sql t h.2.2.1 h'.2.2.1 (List.cons.inj hmembers).1]
    case cons.cons.cons.cons => simp only [htests]
    all_goals simp [Test.toMembers] at hmembers
termination_by structural f => f

theorem filters_eq : ∀ (fs : List Filter) {fs' : List Filter}, Filter.AllObey .unmistakable fs →
    Filter.AllObey .unmistakable fs' → Filter.toJsonAll fs = Filter.toJsonAll fs' →
      standard.filters fs = standard.filters fs'
  | [], [], _, _, _ => rfl
  | f :: rest, f' :: rest', h, h', heq => by
    obtain ⟨hfirst, hrest⟩ := List.cons.inj heq
    rw [filters, filters, filter_eq f h.1 h'.1 hfirst, filters_eq rest h.2 h'.2 hrest]
termination_by structural fs => fs

theorem filter?_eq (key : String) : ∀ (f : Option Filter) {f' : Option Filter},
    Filter.OptionObeys .unmistakable f → Filter.OptionObeys .unmistakable f' →
      Filter.toMembers key f = Filter.toMembers key f' → standard.filter? f = standard.filter? f'
  | none, none, _, _, _ => rfl
  | some f, some f', h, h', heq => by
    have hf : f.toJson = f'.toJson := congrArg Prod.snd (List.cons.inj heq).1
    rw [filter?, filter?, filter_eq f h h' hf]
termination_by structural f => f

theorem joinTarget_eq : ∀ (t : JoinTarget) {t' : JoinTarget}, t.Obeys .unmistakable →
    t'.Obeys .unmistakable → t.toJson = t'.toJson → standard.joinTarget t = standard.joinTarget t'
  | .entity ⟨_, _, _⟩, _, h, h', heq => by
    obtain ⟨fields', rfl, -⟩ := JoinTarget.eq_entity h.2.1 h' heq.symm
    rfl
  | .query q, _, h, h', heq => by
    obtain ⟨q', rfl, hq⟩ := JoinTarget.eq_query h' heq.symm
    rw [joinTarget, joinTarget, query_eq q h.2 h'.2 hq.symm]
termination_by structural t => t

theorem joinCondition_eq (entity : String) : ∀ (c : JoinCondition) {c' : JoinCondition},
    c.Obeys .unmistakable → c'.Obeys .unmistakable → c.toJson = c'.toJson →
      standard.joinCondition entity c = standard.joinCondition entity c'
  | .columns sides, c', _, _, heq => by
    cases c' with
    | columns sides' =>
      rw [List.map_injective_iff.mpr JoinSide.toJson_injective (Json.array.inj heq)]
    | filter f =>
      obtain ⟨members, hf⟩ := f.toJson_eq_object
      cases heq.trans hf
  | .filter f, c', h, h', heq => by
    cases c' with
    | columns sides =>
      obtain ⟨members, hf⟩ := f.toJson_eq_object
      cases heq.symm.trans hf
    | filter f' => rw [joinCondition, joinCondition, filter_eq f h h' heq]
termination_by structural c => c

theorem joins_eq (entity : String) : ∀ (js : List Join) {js' : List Join},
    Join.AllObey .unmistakable js → Join.AllObey .unmistakable js' →
      Join.toJsonAll js = Join.toJsonAll js' →
        standard.joins entity js = standard.joins entity js'
  | [], [], _, _, _ => rfl
  | ⟨t, c, label⟩ :: rest, ⟨t', c', label'⟩ :: rest', h, h', heq => by
    obtain ⟨hfirst, hrest⟩ := List.cons.inj heq
    obtain ⟨ht, hc, rfl⟩ := Join.eq_of_toJson hfirst
    rw [joins, joins, join, join, joinTarget_eq t h.1.2.1 h'.1.2.1 ht,
      joinCondition_eq entity c h.1.2.2 h'.1.2.2 hc, JoinTarget.label?_eq h.1.2.1 h'.1.2.1 ht,
      joins_eq entity rest h.2 h'.2 hrest]
termination_by structural js => js

theorem joinedFields_eq : ∀ (js : List Join) {js' : List Join},
    Join.AllObey .unmistakable js → Join.AllObey .unmistakable js' →
      Join.toJsonAll js = Join.toJsonAll js' → standard.joinedFields js = standard.joinedFields js'
  | [], [], _, _, _ => rfl
  | ⟨.entity ⟨_, fs, _⟩, _, _⟩ :: rest, ⟨t', _, _⟩ :: rest', h, h', heq => by
    obtain ⟨hfirst, hrest⟩ := List.cons.inj heq
    obtain ⟨fs', rfl, hfs⟩ :=
      JoinTarget.eq_entity h.1.2.1.2.1 h'.1.2.1 (Join.eq_of_toJson hfirst).1.symm
    rw [joinedFields, joinedFields, joinedFields_eq rest h.2 h'.2 hrest]
    simp only [fields_eq .projection fs h.1.2.1.2.2 h'.1.2.1.2.2 hfs.symm]
  | ⟨.query _, _, _⟩ :: rest, ⟨t', _, _⟩ :: rest', h, h', heq => by
    obtain ⟨hfirst, hrest⟩ := List.cons.inj heq
    obtain ⟨q', rfl, -⟩ := JoinTarget.eq_query h'.1.2.1 (Join.eq_of_toJson hfirst).1.symm
    rw [joinedFields, joinedFields, joinedFields_eq rest h.2 h'.2 hrest]
termination_by structural js => js

theorem values_eq : ∀ (vs : List Assignment) {vs' : List Assignment},
    Assignment.AllObey .unmistakable vs → Assignment.AllObey .unmistakable vs' →
      Assignment.toMembers vs = Assignment.toMembers vs' → standard.values vs = standard.values vs'
  | [], [], _, _, _ => rfl
  | [], ⟨_, _⟩ :: _, _, _, heq => nomatch heq
  | ⟨_, x⟩ :: rest, ⟨_, x'⟩ :: rest', h, h', heq => by
    obtain ⟨hfirst, hrest⟩ := List.cons.inj heq
    rw [values, values, operand_eq x h.1.2 h'.1.2 (Prod.mk.inj hfirst).2,
      values_eq rest h.2 h'.2 hrest]
termination_by structural vs => vs

theorem assignments_eq : ∀ (vs : List Assignment) {vs' : List Assignment},
    Assignment.AllObey .unmistakable vs → Assignment.AllObey .unmistakable vs' →
      Assignment.toMembers vs = Assignment.toMembers vs' →
        standard.assignments vs = standard.assignments vs'
  | [], [], _, _, _ => rfl
  | [], ⟨_, _⟩ :: _, _, _, heq => nomatch heq
  | ⟨_, x⟩ :: rest, ⟨_, x'⟩ :: rest', h, h', heq => by
    obtain ⟨hfirst, hrest⟩ := List.cons.inj heq
    obtain ⟨rfl, hx⟩ := Prod.mk.inj hfirst
    rw [assignments, assignments, operand_eq x h.1.2 h'.1.2 hx, assignments_eq rest h.2 h'.2 hrest]
termination_by structural vs => vs

theorem orders_eq : ∀ (os : List Order) {os' : List Order}, Order.AllObey .unmistakable os →
    Order.AllObey .unmistakable os' → Order.toJsonAll os = Order.toJsonAll os' →
      standard.orders os = standard.orders os'
  | [], [], _, _, _ => rfl
  | ⟨_, fs⟩ :: rest, ⟨_, fs'⟩ :: rest', h, h', heq => by
    obtain ⟨hfirst, hrest⟩ := List.cons.inj heq
    obtain ⟨rfl, hfs⟩ := Order.eq_of_toJson hfirst
    rw [orders, orders, Field.isEmpty_eq hfs, fields_eq .reference fs h.1 h'.1 hfs,
      orders_eq rest h.2 h'.2 hrest]
termination_by structural os => os

/-- Queries with one document say one statement, or are refused for one cause. -/
theorem query_eq : ∀ (q : Query) {q' : Query}, q.Obeys .unmistakable → q'.Obeys .unmistakable →
    q.toJson = q'.toJson → standard.query q = standard.query q'
  | ⟨statement, js, condition, prepared, os, groups, _, _, _, _, _, _⟩,
    ⟨statement', js', condition', prepared', os', groups', _, _, _, _, _, _⟩, h, h', heq => by
    obtain ⟨hstatement, hjs, hcondition, hprepared, hos, hgroups, rfl, rfl, rfl, rfl, -⟩ :=
      Query.sameParts_of_toJson_eq heq
    obtain ⟨-, hs, hj, hc, hp, ho, hg, -⟩ := h
    obtain ⟨-, hs', hj', hc', hp', ho', hg', -⟩ := h'
    have hfilter := filter?_eq "$where" condition hc hc' hcondition
    have hearlier := filter?_eq "$prepared" prepared hp hp' hprepared
    rcases statement with _ | ⟨entity, fs⟩ | ⟨entity, vs⟩ | ⟨entity, vs⟩ | entity
    · obtain rfl := Statement.eq_none hstatement.symm
      simp only [query, hfilter, hearlier]
    · obtain ⟨fs', rfl, hfs⟩ := Statement.eq_select hstatement.symm
      simp only [query, hfilter, hearlier, Field.isEmpty_eq hfs.symm,
        Join.all_isEmpty_fields_eq hj hj' hjs, fields_eq .projection fs hs.2 hs'.2 hfs.symm,
        joinedFields_eq js hj hj' hjs, joins_eq entity js hj hj' hjs,
        fields_eq .reference groups hg hg' hgroups, orders_eq os ho ho' hos]
    · obtain ⟨vs', rfl, hvs⟩ := Statement.eq_insert hstatement.symm
      simp only [query, Assignment.isEmpty_eq hvs.symm, Assignment.columns_eq hvs.symm,
        values_eq vs hs.2 hs'.2 hvs.symm]
    · obtain ⟨vs', rfl, hvs⟩ := Statement.eq_update hstatement.symm
      simp only [query, hfilter, hearlier, Assignment.isEmpty_eq hvs.symm,
        assignments_eq vs hs.2 hs'.2 hvs.symm]
    · obtain rfl := Statement.eq_delete hstatement.symm
      simp only [query, hfilter, hearlier]
termination_by structural q => q

end

end SqlWriter

end QueryCompiler
