import QueryCompiler.Proofs.LikeClauses

/-!
# Queries with like literals

When each literal of a query is replaced by one that is written alike, the query is written alike as
well, or it is refused for a like cause (`Likeness.agree_query`). What a filter is written as is the
empty text or stands between brackets of its own (`Likeness.agree_filter`).
-/

namespace QueryCompiler

namespace Likeness

variable {L : Likeness}

/-- Each literal is written alike, by itself and as an argument, when `g` replaces it. -/
structure Replaces (L : Likeness) (w : SqlWriter) (g : Value → Value) : Prop where
  literal : ∀ v, L.Like (w.dialect.literal v) (w.dialect.literal (g v))
  argument : ∀ v, L.LikeArgument (w.literalArgument v) (w.literalArgument (g v))
  isNull : ∀ v, (g v).isNull = v.isNull

theorem LikeArgument.raw {s s' : String} (h : L.Like s s') : L.LikeArgument (.raw s) (.raw s') :=
  ⟨h, .none, rfl, rfl⟩

section Rendering

variable {w : SqlWriter} {g : Value → Value}

theorem agree_call (func : String) {args args' : List Argument}
    (hargs : List.Forall₂ L.LikeArgument args args') :
    Agree L.LikeRefusal L.Like (w.call func args) (w.call func args') :=
  (w.functions.agree_render func hargs).mapError fun _ _ => .function

-- One theorem for each function that writes, in the order of the writer, by its recursion. Filters
-- give more than the others: what they are written as is enclosed, so that it can be cut off again.
mutual

theorem agree_field (h : L.Replaces w g) (use : FieldUse) :
    ∀ {f : Field}, f.Obeys (.spelled L.plain) →
      Agree L.LikeRefusal L.Like (w.field use f) (w.field use (f.mapValues g))
  | .name _, hf => .ok (Like.of_spelled hf)
  | .qualified _ _, hf =>
    have hpoint : L.Like "." "." := Like.words fun _ => rfl
    .ok (((Like.of_spelled hf.1).append hpoint).append (Like.of_spelled hf.2))
  | .labelled _ _, hf => .ok (Like.named use (Like.of_spelled hf.2) (Spelled.some hf.1))
  | .aggregate label func name, hf => by
    have hname : L.Like name name := Like.of_spelled hf.2
    refine .ok (Like.named use (Like.closed fun n => ?_) (Spelled.some hf.1))
    simp only [String.toList_append]
    have hopening : L.Alike n (func.sqlName.toList ++ "(".toList)
        (func.sqlName.toList ++ "(".toList) (n + 1) := Alike.of_brackets (by cases func <;> rfl)
    exact hopening.append (hname (n + 1))
  | .function label func args, hf => by
    rw [Field.mapValues, SqlWriter.field, SqlWriter.field]
    refine (agree_arguments h hf.2).bind fun as as' has => ?_
    refine (agree_call func has).bind fun sql sql' hsql => ?_
    exact .ok (Like.named use hsql (Spelled.some hf.1))
  | .constant v _, hf => .ok (Like.named use (h.literal v) hf.1)

theorem agree_fields (h : L.Replaces w g) (use : FieldUse) :
    ∀ {fs : List Field}, Field.AllObey (.spelled L.plain) fs →
      Agree L.LikeRefusal (List.Forall₂ L.Like) (w.fields use fs)
        (w.fields use (Field.mapValuesAll g fs))
  | [], _ => .ok .nil
  | _ :: _, hfs => by
    rw [Field.mapValuesAll, SqlWriter.fields, SqlWriter.fields]
    exact (agree_field h use hfs.1).bind fun _ _ hsql =>
      (agree_fields h use hfs.2).bind fun _ _ hrest => .ok (.cons hsql hrest)

theorem agree_operand (h : L.Replaces w g) : ∀ {x : Operand}, x.Obeys (.spelled L.plain) →
    Agree L.LikeRefusal L.Like (w.operand x) (w.operand (x.mapValues g))
  | .value v, _ => .ok (h.literal v)
  | .field _, hx => agree_field h .reference hx.2
  | .list _, hx => by
    rw [Operand.mapValues, SqlWriter.operand, SqlWriter.operand]
    exact (agree_operands h hx.2).bind fun _ _ hitems => .ok (Like.commas hitems)
  | .query _, hx => by
    rw [Operand.mapValues, SqlWriter.operand, SqlWriter.operand]
    exact (agree_query h hx.2).bind fun _ _ hsql => .ok hsql.brackets

theorem agree_operands (h : L.Replaces w g) :
    ∀ {xs : List Operand}, Operand.AllObey (.spelled L.plain) xs →
      Agree L.LikeRefusal (List.Forall₂ L.Like) (w.operands xs)
        (w.operands (Operand.mapValuesAll g xs))
  | [], _ => .ok .nil
  | _ :: _, hxs => by
    rw [Operand.mapValuesAll, SqlWriter.operands, SqlWriter.operands]
    exact (agree_operand h hxs.1).bind fun _ _ hsql =>
      (agree_operands h hxs.2).bind fun _ _ hrest => .ok (.cons hsql hrest)

theorem agree_argument (h : L.Replaces w g) : ∀ {x : Operand}, x.Obeys (.spelled L.plain) →
    Agree L.LikeRefusal L.LikeArgument (w.argument x) (w.argument (x.mapValues g))
  | .value v, _ => .ok (h.argument v)
  | .field _, hx => by
    rw [Operand.mapValues, SqlWriter.argument, SqlWriter.argument]
    exact (agree_field h .reference hx.2).bind fun _ _ hsql => .ok (.raw hsql)
  | .list _, hx => by
    rw [Operand.mapValues, SqlWriter.argument, SqlWriter.argument]
    exact (agree_operands h hx.2).bind fun _ _ hitems => .ok (.raw (Like.commas hitems))
  | .query _, hx => by
    rw [Operand.mapValues, SqlWriter.argument, SqlWriter.argument]
    exact (agree_query h hx.2).bind fun _ _ hsql => .ok (.raw hsql.brackets)

theorem agree_arguments (h : L.Replaces w g) :
    ∀ {xs : List Operand}, Operand.AllObey (.spelled L.plain) xs →
      Agree L.LikeRefusal (List.Forall₂ L.LikeArgument) (w.arguments xs)
        (w.arguments (Operand.mapValuesAll g xs))
  | [], _ => .ok .nil
  | _ :: _, hxs => by
    rw [Operand.mapValuesAll, SqlWriter.arguments, SqlWriter.arguments]
    exact (agree_argument h hxs.1).bind fun _ _ harg =>
      (agree_arguments h hxs.2).bind fun _ _ hrest => .ok (.cons harg hrest)

theorem agree_inList (h : L.Replaces w g) : ∀ {x : Operand}, x.Obeys (.spelled L.plain) →
    Agree L.LikeRefusal L.Like (w.inList x) (w.inList (x.mapValues g))
  | .value _, _ => .error (.same _)
  | .field _, _ => .error (.same _)
  | .list [], _ => .ok (Like.words fun _ => rfl)
  | .list (_ :: _), hx => by
    rw [Operand.mapValues, Operand.mapValuesAll, SqlWriter.inList, SqlWriter.inList,
      ← Operand.mapValuesAll]
    · exact (agree_operands h hx.2).bind fun _ _ hitems => .ok (Like.commas hitems)
    · intro h
      cases h
    · intro h
      cases h
  | .query q, hx => by
    rw [Operand.mapValues, SqlWriter.inList, SqlWriter.inList, Query.isSelect_mapValues]
    split_ifs
    · exact agree_query h hx.2
    · exact .error (.same _)

theorem agree_test (h : L.Replaces w g) {target target' : String} (ht : L.Like target target') :
    ∀ {t : Test}, t.Obeys (.spelled L.plain) →
      Agree L.LikeRefusal L.Enclosed (w.test target t) (w.test target' (t.mapValues g))
  | ⟨op, x⟩, hx => by
    have hnull := Operand.isNull_mapValues h.isNull x
    have hoperand := agree_operand h hx
    have hlist := agree_inList h hx
    cases op
    case eq =>
      simp only [Test.mapValues, SqlWriter.test, hnull]
      split_ifs
      · exact .ok (.null ht)
      · exact hoperand.bind fun _ _ hsql => .ok (.comparison (fun _ => rfl) ht hsql)
    case ne =>
      simp only [Test.mapValues, SqlWriter.test, hnull]
      split_ifs
      · exact .ok (.notNull ht)
      · exact hoperand.bind fun _ _ hsql => .ok (.inequality ht hsql)
    case gt => exact hoperand.bind fun _ _ hsql => .ok (.comparison (fun _ => rfl) ht hsql)
    case gte => exact hoperand.bind fun _ _ hsql => .ok (.comparison (fun _ => rfl) ht hsql)
    case lt => exact hoperand.bind fun _ _ hsql => .ok (.comparison (fun _ => rfl) ht hsql)
    case lte => exact hoperand.bind fun _ _ hsql => .ok (.comparison (fun _ => rfl) ht hsql)
    case isIn => exact hlist.bind fun _ _ hsql => .ok (.membership ht hsql)
    case notIn => exact hlist.bind fun _ _ hsql => .ok (.exclusion ht hsql)

theorem agree_tests (h : L.Replaces w g) {target target' : String} (ht : L.Like target target') :
    ∀ {ts : List Test}, Test.AllObey (.spelled L.plain) ts →
      Agree L.LikeRefusal (List.Forall₂ L.Like) (w.tests target ts)
        (w.tests target' (Test.mapValuesAll g ts))
  | [], _ => .ok .nil
  | _ :: _, hts => by
    rw [Test.mapValuesAll, SqlWriter.tests, SqlWriter.tests]
    exact (agree_test h ht hts.1).bind fun _ _ hsql =>
      (agree_tests h ht hts.2).bind fun _ _ hrest => .ok (.cons hsql.like hrest)

theorem agree_filter (h : L.Replaces w g) : ∀ {f : Filter}, f.Obeys (.spelled L.plain) →
    Agree L.LikeRefusal L.Enclosed (w.filter f) (w.filter (f.mapValues g))
  | .logical connective _, hf => by
    rw [Filter.mapValues, SqlWriter.filter, SqlWriter.filter]
    exact (agree_filters h hf.2).bind fun _ _ hparts => .ok (Enclosed.combine connective hparts)
  | .compare _ _, hf => agree_test h (Like.of_spelled hf.1) hf.2
  | .function target func args ts, hf => by
    rw [Filter.mapValues, SqlWriter.filter, SqlWriter.filter]
    refine (agree_arguments h hf.2.1).bind fun as as' has => ?_
    have htarget : L.LikeArgument (.raw target) (.raw target) := .raw (Like.of_spelled hf.1)
    refine (agree_call func (.cons htarget has)).bind fun sql sql' hsql => ?_
    -- A call says nothing on both sides or on neither, so both take the same branch.
    simp only [hsql.eq_empty_iff]
    split_ifs
    · exact .ok .empty
    · exact agree_outcome h hsql hf.2.2

/-- The tests of what a function gives. -/
theorem agree_outcome (h : L.Replaces w g) {sql sql' : String} (hsql : L.Like sql sql') :
    ∀ {ts : List Test}, Test.AllObey (.spelled L.plain) ts →
      Agree L.LikeRefusal L.Enclosed
        (match ts with
          | [] => pure ("(" ++ sql ++ " IS NULL)")
          | [t] => w.test sql t
          | ts => do return "(" ++ Text.joined " AND " (← w.tests sql ts) ++ ")")
        (match Test.mapValuesAll g ts with
          | [] => pure ("(" ++ sql' ++ " IS NULL)")
          | [t] => w.test sql' t
          | ts => do return "(" ++ Text.joined " AND " (← w.tests sql' ts) ++ ")")
  | [], _ => .ok (.null hsql)
  | [_], hts => agree_test h hsql hts.1
  | _ :: _ :: _, hts => by
    have hand : L.Like " AND " " AND " := Like.words fun _ => rfl
    simp only [Test.mapValuesAll, SqlWriter.tests]
    refine Agree.bind (R := List.Forall₂ L.Like) ?_ fun _ _ hparts =>
      .ok (.brackets (Like.joined hand hparts))
    exact (agree_test h hsql hts.1).bind fun _ _ hfirst => ((agree_test h hsql hts.2.1).bind
      fun _ _ hsecond => (agree_tests h hsql hts.2.2).bind fun _ _ hrest =>
        .ok (.cons hsecond.like hrest)).bind fun _ _ hrest => .ok (.cons hfirst.like hrest)

theorem agree_filters (h : L.Replaces w g) :
    ∀ {fs : List Filter}, Filter.AllObey (.spelled L.plain) fs →
      Agree L.LikeRefusal (List.Forall₂ L.Enclosed) (w.filters fs)
        (w.filters (Filter.mapValuesAll g fs))
  | [], _ => .ok .nil
  | _ :: _, hfs => by
    rw [Filter.mapValuesAll, SqlWriter.filters, SqlWriter.filters]
    exact (agree_filter h hfs.1).bind fun _ _ hsql =>
      (agree_filters h hfs.2).bind fun _ _ hrest => .ok (.cons hsql hrest)

theorem agree_filter? (h : L.Replaces w g) :
    ∀ {f : Option Filter}, Filter.OptionObeys (.spelled L.plain) f →
      Agree L.LikeRefusal (Option.Rel L.Enclosed) (w.filter? f)
        (w.filter? (Filter.mapValuesOption g f))
  | none, _ => .ok .none
  | some _, hf => by
    rw [Filter.mapValuesOption, SqlWriter.filter?, SqlWriter.filter?]
    exact (agree_filter h hf).bind fun _ _ hsql => .ok (.some hsql)

theorem agree_joinedFields (h : L.Replaces w g) :
    ∀ {js : List Join}, Join.AllObey (.spelled L.plain) js →
      Agree L.LikeRefusal (List.Forall₂ L.Like) (w.joinedFields js)
        (w.joinedFields (Join.mapValuesAll g js))
  | [], _ => .ok .nil
  | ⟨.entity ⟨_, _, _⟩, _, _⟩ :: _, hjs =>
    (agree_fields h .projection hjs.1.2.1.2.2).bind fun _ _ hown =>
      (agree_joinedFields h hjs.2).bind fun _ _ hrest => .ok (List.rel_append hown hrest)
  | ⟨.query _, _, _⟩ :: _, hjs =>
    (agree_joinedFields h hjs.2).bind fun _ _ hrest => .ok hrest

theorem agree_joinTarget (h : L.Replaces w g) : ∀ {t : JoinTarget}, t.Obeys (.spelled L.plain) →
    Agree L.LikeRefusal L.Like (w.joinTarget t) (w.joinTarget (t.mapValues g))
  | .entity ⟨_, _, _⟩, ht => .ok (Like.of_spelled ht.2.1.1)
  | .query _, ht => by
    rw [JoinTarget.mapValues, SqlWriter.joinTarget, SqlWriter.joinTarget]
    exact (agree_query h ht.2).bind fun _ _ hsql => .ok hsql.brackets

theorem agree_joinCondition (h : L.Replaces w g) (entity : String) :
    ∀ {c : JoinCondition}, c.Obeys (.spelled L.plain) →
      Agree L.LikeRefusal L.Like (w.joinCondition entity c)
        (w.joinCondition entity (c.mapValues g))
  | .columns _, hc => agree_joinColumns hc
  | .filter _, hc => by
    rw [JoinCondition.mapValues, SqlWriter.joinCondition, SqlWriter.joinCondition]
    refine (agree_filter h hc).bind fun sql sql' hsql => ?_
    simp only [hsql.like.eq_empty_iff]
    split_ifs
    · exact .error (.same _)
    · have hon : L.Like " ON " " ON " := Like.words fun _ => rfl
      exact .ok (hon.append hsql.like)

theorem agree_join (h : L.Replaces w g) (entity : String) :
    ∀ {j : Join}, Join.AllObey (.spelled L.plain) [j] →
      Agree L.LikeRefusal L.Like (w.join entity j) (w.join entity (j.mapValues g))
  | ⟨_, _, _⟩, ⟨⟨hlabel, htarget, hcondition⟩, _⟩ => by
    rw [Join.mapValues, SqlWriter.join, SqlWriter.join, JoinTarget.label?_mapValues]
    refine (agree_joinTarget h htarget).bind fun joined joined' hjoined => ?_
    refine (agree_joinCondition h entity hcondition).bind fun on on' hon => .ok ?_
    have hinner : L.Like " INNER JOIN " " INNER JOIN " := Like.words fun _ => rfl
    have hname := Like.newName (spelled_effectiveLabel hlabel htarget)
    exact ((hinner.append hjoined).append hname).append hon

theorem agree_joins (h : L.Replaces w g) (entity : String) :
    ∀ {js : List Join}, Join.AllObey (.spelled L.plain) js →
      Agree L.LikeRefusal L.Like (w.joins entity js) (w.joins entity (Join.mapValuesAll g js))
  | [], _ => .ok Like.empty
  | ⟨target, condition, label⟩ :: _, hjs => by
    have hj : Join.AllObey (.spelled L.plain) [⟨target, condition, label⟩] := ⟨hjs.1, trivial⟩
    rw [Join.mapValuesAll, SqlWriter.joins, SqlWriter.joins]
    exact (agree_join h entity hj).bind fun _ _ hsql =>
      (agree_joins h entity hjs.2).bind fun _ _ hrest => .ok (hsql.append hrest)

theorem agree_values (h : L.Replaces w g) :
    ∀ {vs : List Assignment}, Assignment.AllObey (.spelled L.plain) vs →
      Agree L.LikeRefusal (List.Forall₂ L.Like) (w.values vs)
        (w.values (Assignment.mapValuesAll g vs))
  | [], _ => .ok .nil
  | ⟨_, _⟩ :: _, hvs => by
    rw [Assignment.mapValuesAll, SqlWriter.values, SqlWriter.values]
    exact (agree_operand h hvs.1.2).bind fun _ _ hsql =>
      (agree_values h hvs.2).bind fun _ _ hrest => .ok (.cons hsql hrest)

theorem agree_assignments (h : L.Replaces w g) :
    ∀ {vs : List Assignment}, Assignment.AllObey (.spelled L.plain) vs →
      Agree L.LikeRefusal (List.Forall₂ L.Like) (w.assignments vs)
        (w.assignments (Assignment.mapValuesAll g vs))
  | [], _ => .ok .nil
  | ⟨_, _⟩ :: _, hvs => by
    rw [Assignment.mapValuesAll, SqlWriter.assignments, SqlWriter.assignments]
    have hequals : L.Like "=" "=" := Like.words fun _ => rfl
    have hcolumn := Like.of_spelled hvs.1.1
    exact (agree_operand h hvs.1.2).bind fun _ _ hsql =>
      (agree_assignments h hvs.2).bind fun _ _ hrest =>
        .ok (.cons ((hcolumn.append hequals).append hsql) hrest)

theorem agree_orders (h : L.Replaces w g) :
    ∀ {os : List Order}, Order.AllObey (.spelled L.plain) os →
      Agree L.LikeRefusal (List.Forall₂ L.Like) (w.orders os) (w.orders (Order.mapValuesAll g os))
  | [], _ => .ok .nil
  | ⟨direction, fs⟩ :: _, hos => by
    simp only [Order.mapValuesAll, SqlWriter.orders, Field.mapValuesAll_isEmpty]
    split_ifs
    · exact .error (.same _)
    · exact (agree_fields h .reference hos.1).bind fun _ _ hown =>
        (agree_orders h hos.2).bind fun _ _ hrest =>
          .ok (List.rel_append (Like.directed direction hown) hrest)

theorem agree_query (h : L.Replaces w g) : ∀ {q : Query}, q.Obeys (.spelled L.plain) →
    Agree L.LikeRefusal L.Like (w.query q) (w.query (q.mapValues g))
  | ⟨none, js, condition, prepared, os, groups, distinct, fixed, skip, take, _, _⟩,
      ⟨_, _, hjs, hf, hp, hos, hgs, _⟩ => by
    rw [Query.mapValues, Statement.mapValuesOption, SqlWriter.query, SqlWriter.query]
    refine (agree_filter? h hf).bind fun f f' hf => (agree_filter? h hp).bind fun p p' hp => ?_
    have hboth := bothConditions_rel hf hp
    generalize SqlWriter.bothConditions f p = both at hboth ⊢
    generalize SqlWriter.bothConditions f' p' = both' at hboth ⊢
    rcases hboth with hboth | _
    · exact .ok hboth.like
    · exact .error (.same _)
  | ⟨some (.select entity fs), js, condition, prepared, os, groups, distinct, fixed, skip, take, _,
      _⟩, ⟨_, hs, hjs, hf, hp, hos, hgs, _⟩ => by
    have hfields : ((Join.mapValuesAll g js).all fun j => j.target.fields.isEmpty)
        = js.all fun j => j.target.fields.isEmpty := by
      rw [Join.mapValuesAll_eq_map, List.all_map]
      exact congrArg js.all (funext fun j => Join.isEmpty_fields_mapValues j)
    simp only [Query.mapValues, Statement.mapValuesOption, Statement.mapValues, SqlWriter.query,
      Field.mapValuesAll_isEmpty, hfields]
    split_ifs
    · exact .error (.same _)
    · refine (agree_fields h .projection hs.2).bind fun own own' hown => ?_
      refine (agree_joinedFields h hjs).bind fun fields fields' hfields => ?_
      refine (agree_joins h entity hjs).bind fun joined joined' hjoined => ?_
      refine (agree_filter? h hf).bind fun f f' hf => (agree_filter? h hp).bind fun p p' hp => ?_
      refine (agree_fields h .reference hgs).bind fun grouped grouped' hgrouped => ?_
      refine (agree_orders h hos).bind fun ordered ordered' hordered => .ok ?_
      have hselection := Like.selection hs.1 distinct fixed (List.rel_append hown hfields)
      have hwhere := Like.whereClause (bothConditions_rel hf hp)
      exact ((((hselection.append hjoined).append hwhere).append
        (Like.clause (fun _ => rfl) hgrouped)).append (Like.clause (fun _ => rfl) hordered)).append
          (Like.limitClause skip take)
  | ⟨some (.insert entity vs), _, _, _, _, _, _, _, _, _, _, _⟩, ⟨_, hs, _⟩ => by
    simp only [Query.mapValues, Statement.mapValuesOption, Statement.mapValues, SqlWriter.query,
      Assignment.mapValuesAll_isEmpty, Assignment.map_column_mapValuesAll]
    split_ifs
    · exact .error (.same _)
    · refine (agree_values h hs.2).bind fun written written' hwritten => .ok fun n => ?_
      have hcolumns := Like.commas (List.forall₂_same.mpr (like_columns hs.2))
      simp only [String.toList_append]
      exact ((((((Alike.of_brackets rfl).append (Like.of_spelled hs.1 n)).append
        (Alike.of_brackets rfl)).append (hcolumns (n + 1))).append (Alike.of_brackets rfl)).append
          (Like.commas hwritten (n + 1))).append (Alike.of_brackets rfl)
  | ⟨some (.update entity vs), _, _, _, _, _, _, _, _, _, _, _⟩, ⟨_, hs, _, hf, hp, _⟩ => by
    simp only [Query.mapValues, Statement.mapValuesOption, Statement.mapValues, SqlWriter.query,
      Assignment.mapValuesAll_isEmpty]
    split_ifs
    · exact .error (.same _)
    · refine (agree_assignments h hs.2).bind fun written written' hwritten => ?_
      refine (agree_filter? h hf).bind fun f f' hf => ?_
      refine (agree_filter? h hp).bind fun p p' hp => .ok ?_
      have hupdate : L.Like "UPDATE " "UPDATE " := Like.words fun _ => rfl
      have hset : L.Like " SET " " SET " := Like.words fun _ => rfl
      exact (((hupdate.append (Like.of_spelled hs.1)).append hset).append
        (Like.commas hwritten)).append (Like.whereClause (bothConditions_rel hf hp))
  | ⟨some (.delete entity), _, _, _, _, _, _, _, _, _, _, _⟩, ⟨_, hs, _, hf, hp, _⟩ => by
    simp only [Query.mapValues, Statement.mapValuesOption, Statement.mapValues, SqlWriter.query]
    refine (agree_filter? h hf).bind fun f f' hf => (agree_filter? h hp).bind fun p p' hp => .ok ?_
    have hdelete : L.Like "DELETE FROM " "DELETE FROM " := Like.words fun _ => rfl
    exact (hdelete.append (Like.of_spelled hs)).append
      (Like.whereClause (bothConditions_rel hf hp))

end

end Rendering

end Likeness

end QueryCompiler
