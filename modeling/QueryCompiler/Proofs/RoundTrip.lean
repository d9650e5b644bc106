import QueryCompiler.Proofs.Dispatch

/-!
# Reading what was written

A query that reading could have given is read back from its document exactly if its tables have
plain names, and then with its dates cut off to milliseconds (`Query.ofJson_toJson`). So a
representable query comes back as it was (`Query.round_trip`).

Each part of a query has its own theorem, by recursion on the part: what is written for it is taken
for such a part again, and its own parts are read back by recursion.
-/

namespace QueryCompiler

open Json (hasKey)

theorem Yields.with_true {ε α : Type} {r : Except ε α} {p : Prop} {x : α} (h : Yields r p x) :
    Yields r (True ∧ p) x :=
  h.iff (by rw [true_and])

/-- What is read for a part that may be absent. -/
def readOption {α : Type} (read : Json → Except QueryError α) :
    Option Json → Except QueryError (Option α)
  | none => .ok none
  | some json => some <$> read json

theorem Statement.toJson_select (entity : String) (fields : List Field) :
    toJson (.select entity fields) = Entity.toJson ⟨entity, fields, none⟩ := rfl

/-! ## The members of a query one by one -/

theorem Json.count?_integer (key : String) (n : UInt64) :
    count? key (.integer n.toNat) = .ok (some n) := by
  have hn : (n.toNat : ℤ) < UInt64.size := by
    exact_mod_cast n.toNat_lt_size
  rw [count?, if_pos ⟨Int.natCast_nonneg _, hn⟩, Int.toNat_natCast, UInt64.ofNat_toNat]

namespace Query

variable (q : Query)

theorem ofMembers_single (m : String × Json) : q.ofMembers [m] = q.ofMember m := rfl

theorem putStatement_of_none {key : String} {read : Unit → Except QueryError Statement}
    (h : q.statement = none) :
    q.putStatement key read = (fun s => { q with statement := some s }) <$> read () := by
  rw [putStatement, h]
  rfl

theorem ofMembers_expand {joins : List Join} (h : q.joins = []) :
    q.ofMembers (itemsMember "$expand" (Join.toJsonAll joins))
      = (fun joins => { q with joins }) <$> Join.ofJsonAll (Join.toJsonAll joins) := by
  rcases joins with _ | ⟨join, _ | ⟨second, rest⟩⟩
  · rcases q
    cases h
    rfl
  · rw [Join.toJsonAll, Join.toJsonAll, Join.ofJsonAll]
    obtain ⟨members, hj⟩ := join.toJson_eq_object
    rw [hj]
    show q.ofMembers [("$expand", .object members)] = _
    rw [ofMembers_single, ofMember_expand_object]
    rcases Join.ofJson (.object members) with e | join
    · rfl
    · rfl
  · exact ofMember_expand q _

theorem ofMembers_order {orders : List Order} (h : q.orders = []) :
    q.ofMembers (listMember "$order" (Order.toJsonAll orders))
      = (fun orders => { q with orders }) <$> Order.ofJsonAll (Order.toJsonAll orders) := by
  rcases orders with _ | ⟨order, rest⟩
  · rcases q
    cases h
    rfl
  · exact ofMember_order q _

theorem ofMembers_group {groups : List Field} (h : q.groups = []) :
    q.ofMembers (listMember "$group" (Field.toJsonAll groups))
      = (fun groups => { q with groups }) <$> Field.ofJsonAll (Field.toJsonAll groups) := by
  rcases groups with _ | ⟨field, rest⟩
  · rcases q
    cases h
    rfl
  · exact ofMember_group q _

theorem ofMembers_where {filter : Option Filter} (h : q.filter = none) :
    q.ofMembers (Filter.toMembers "$where" filter)
      = (fun filter => { q with filter }) <$>
        readOption Filter.ofJson (filter.map Filter.toJson) := by
  rcases filter with _ | filter
  · rcases q
    cases h
    rfl
  · obtain ⟨members, hf⟩ := filter.toJson_eq_object
    rw [Filter.toMembers, ofMembers_single, Option.map_some, hf, ofMember_where, readOption]
    rcases Filter.ofJson (.object members) with e | f
    · rfl
    · rfl

theorem ofMembers_prepared {filter : Option Filter} (h : q.prepared = none) :
    q.ofMembers (Filter.toMembers "$prepared" filter)
      = (fun prepared => { q with prepared }) <$>
        readOption Filter.ofJson (filter.map Filter.toJson) := by
  rcases filter with _ | filter
  · rcases q
    cases h
    rfl
  · obtain ⟨members, hf⟩ := filter.toJson_eq_object
    rw [Filter.toMembers, ofMembers_single, Option.map_some, hf, ofMember_prepared, readOption]
    rcases Filter.ofJson (.object members) with e | f
    · rfl
    · rfl

theorem ofMembers_distinct (h : q.distinct = false) (flag : Bool) :
    q.ofMembers (flagMember "$distinct" flag) = .ok { q with distinct := flag } := by
  rcases flag
  · rcases q
    cases h
    rfl
  · rfl

theorem ofMembers_fixed (h : q.fixed = false) (flag : Bool) :
    q.ofMembers (flagMember "$fixed" flag) = .ok { q with fixed := flag } := by
  rcases flag
  · rcases q
    cases h
    rfl
  · rfl

theorem ofMembers_skip (h : q.skip = none) (n : Option UInt64) :
    q.ofMembers (countMember "$skip" n) = .ok { q with skip := n } := by
  rcases n with _ | n
  · rcases q
    cases h
    rfl
  · rw [countMember, Option.map_some, optionalMember, ofMembers_single, ofMember_skip,
      Json.count?_integer]
    rfl

theorem ofMembers_take (h : q.take = none) (n : Option UInt64) :
    q.ofMembers (countMember "$take" n) = .ok { q with take := n } := by
  rcases n with _ | n
  · rcases q
    cases h
    rfl
  · rw [countMember, Option.map_some, optionalMember, ofMembers_single, ofMember_take,
      Json.count?_integer]
    rfl

theorem ofMembers_label (h : q.label = none) (name : Option String) :
    q.ofMembers (optionalMember "$alias" (name.map .string)) = .ok { q with label := name } := by
  rcases name with _ | name
  · rcases q
    cases h
    rfl
  · rfl

end Query

section Members

variable {q q' : Query} {p p' : Prop} {ms ns : List (String × Json)}

/-- What is read for one part of the query is put into its place. -/
theorem Yields.append {α : Type} {part : Except QueryError α} {x : α} {put : α → Query}
    (h : Yields (q.ofMembers ms) p q') (hread : q'.ofMembers ns = put <$> part)
    (hpart : Yields part p' x) : Yields (q.ofMembers (ms ++ ns)) (p ∧ p') (put x) := by
  rw [Query.ofMembers_append]
  refine h.bind ?_
  rw [hread]
  exact hpart.map put

theorem Yields.append_ok (h : Yields (q.ofMembers ms) p q') {q'' : Query}
    (hread : q'.ofMembers ns = .ok q'') : Yields (q.ofMembers (ms ++ ns)) p q'' := by
  rw [Query.ofMembers_append]
  refine (h.bind ?_).iff (and_iff_left trivial)
  rw [hread]
  exact Yields.ok q''

end Members

/-! ## The parts of a query -/

theorem JoinSide.ofJson_toJson (side : JoinSide) : ofJson side.toJson = .ok side := by
  have htexts : ∀ columns : List String,
      (columns.map Json.string).mapM (Json.text "join field") = .ok columns := by
    intro columns
    induction columns with
    | nil => rfl
    | cons column rest ih =>
      rw [List.map_cons, List.mapM_cons, Json.text, ih]
      rfl
  rw [toJson, Json.single, ofJson, Json.oneOrMany, htexts]
  rfl

theorem JoinSide.mapM_ofJson_toJson : ∀ sides : List JoinSide,
    (sides.map toJson).mapM ofJson = .ok sides
  | [] => rfl
  | side :: sides => by
    rw [List.map_cons, List.mapM_cons, side.ofJson_toJson, mapM_ofJson_toJson sides]
    rfl

theorem Test.mem_keys_toMembers {key : String} : ∀ {tests : List Test},
    key ∈ (Test.toMembers tests).map Prod.fst → ∃ test ∈ tests, test.op.key = key
  | ⟨op, _⟩ :: tests, h => by
    rw [toMembers, List.map_cons, List.mem_cons] at h
    rcases h with rfl | h
    · exact ⟨_, List.mem_cons_self, rfl⟩
    · obtain ⟨test, htest, hkey⟩ := mem_keys_toMembers h
      exact ⟨test, List.mem_cons_of_mem _ htest, hkey⟩

theorem ComparisonOp.key_injective : Function.Injective key :=
  injective_of_eq_some ofKey?_key

theorem Test.nodup_keys_toMembers : ∀ {tests : List Test}, (tests.map Test.op).Nodup →
    ((Test.toMembers tests).map Prod.fst).Nodup
  | [], _ => List.nodup_nil
  | ⟨op, _⟩ :: tests, h => by
    rw [List.map_cons, List.nodup_cons] at h
    rw [toMembers, List.map_cons, List.nodup_cons]
    refine ⟨fun hmem => h.1 ?_, nodup_keys_toMembers h.2⟩
    obtain ⟨test, htest, hkey⟩ := mem_keys_toMembers hmem
    exact List.mem_map.mpr ⟨test, htest, ComparisonOp.key_injective hkey⟩

theorem Test.namesTests_toMembers : ∀ tests : List Test,
    Json.namesTests (Test.toMembers tests) = true
  | [] => rfl
  | ⟨op, _⟩ :: tests => by
    rw [Json.namesTests, toMembers, List.all_cons, toMember, ComparisonOp.ofKey?_key]
    exact namesTests_toMembers tests

/-- The last item of a call is read as the tests, or as the one literal that is expected. -/
theorem Test.ofLast_lastItem {tests : List Test} (hnodup : (tests.map Test.op).Nodup)
    (hobeys : Test.AllObey .decoded tests)
    (h : Yields (Test.ofMembers (Test.toMembers tests)) (Test.AllObey .plainTables tests)
      (Test.mapValuesAll Value.truncated tests)) :
    Yields (Test.ofLast (lastItem tests (Test.toMembers tests))) (Test.AllObey .plainTables tests)
      (Test.mapValuesAll Value.truncated tests) := by
  unfold lastItem
  split
  · rw [Test.ofLast_literal hobeys.1.2]
    exact (Yields.ok _).iff (iff_of_true trivial ⟨⟨trivial, trivial⟩, trivial⟩)
  · rw [Json.distinctMembers_eq_self (nodup_keys_toMembers hnodup), Test.ofLast,
      if_pos (namesTests_toMembers tests)]
    exact h

theorem Field.Obeys.isReadable : ∀ {f : Field}, f.Obeys .decoded → f.IsReadable
  | .name _, h => h
  | .qualified _ _, h => h
  | .labelled _ _, h => h
  | .aggregate _ _ _, h => h
  | .function _ _ _, h => h.1
  | .constant _ _, h => h.1

mutual

theorem Field.ofJson_toJson : ∀ {f : Field}, f.Obeys .decoded →
    Yields (Field.ofJson f.toJson) (f.Obeys .plainTables) (f.mapValues Value.truncated)
  | .name text, h => by
    have htext : Field.select text = .name text := h
    rw [Field.toJson, Field.ofJson_name, htext]
    exact Yields.ok _
  | .qualified entity text, h => by
    have htext : Field.select (entity ++ "." ++ text) = .qualified entity text := h
    rw [Field.toJson, Field.ofJson_name, htext]
    exact Yields.ok _
  | .labelled label expression, h => by
    rw [Field.toJson, Field.ofJson_labelled h]
    exact Yields.ok _
  | .aggregate label aggregate text, h => by
    rw [Field.toJson, Field.ofJson_aggregate h]
    exact Yields.ok _
  | .function label func args, ⟨h, hargs⟩ => by
    rw [Field.toJson, Field.ofJson_function h.1 h.2.1 h.2.2]
    exact ((Operand.ofJsonAll_toJsonAll hargs).map _).with_true
  | .constant v none, ⟨_, hv⟩ => by
    rw [Field.toJson, Field.ofJson_constant, Value.ofJson_toJson hv]
    exact (Yields.ok _).with_true
  | .constant v (some label), ⟨h, hv⟩ => by
    rw [Field.toJson, Field.ofJson_namedConstant (h label rfl), Value.ofJson_toJson hv]
    exact (Yields.ok _).with_true

theorem Field.ofJsonAll_toJsonAll : ∀ {fs : List Field}, Field.AllObey .decoded fs →
    Yields (Field.ofJsonAll (Field.toJsonAll fs)) (Field.AllObey .plainTables fs)
      (Field.mapValuesAll Value.truncated fs)
  | [], _ => Yields.ok _
  | f :: fs, ⟨hf, hfs⟩ => by
    rw [Field.toJsonAll, Field.ofJsonAll]
    exact (Field.ofJson_toJson hf).bind ((Field.ofJsonAll_toJsonAll hfs).map _)

theorem Operand.ofJson_toJson : ∀ {x : Operand}, x.Obeys .decoded →
    Yields (Operand.ofJson x.toJson) (x.Obeys .plainTables) (x.mapValues Value.truncated)
  | .value v, ⟨_, hv⟩ => by
    rw [Operand.toJson, Operand.ofJson_literal hv]
    exact (Yields.ok _).with_true
  | .field f, ⟨_, hf⟩ => by
    rw [Operand.toJson, Operand.ofJson_field hf.isReadable]
    exact ((Field.ofJson_toJson hf).map _).with_true
  | .list items, ⟨_, hitems⟩ => by
    rw [Operand.toJson, Operand.ofJson]
    exact ((Operand.ofJsonAll_toJsonAll hitems).map _).with_true
  | .query q, ⟨h, hq⟩ => by
    rw [Operand.toJson, Operand.ofJson_query h]
    exact ((Query.ofJson_toJson hq).map _).with_true

theorem Operand.ofJsonAll_toJsonAll : ∀ {xs : List Operand}, Operand.AllObey .decoded xs →
    Yields (Operand.ofJsonAll (Operand.toJsonAll xs)) (Operand.AllObey .plainTables xs)
      (Operand.mapValuesAll Value.truncated xs)
  | [], _ => Yields.ok _
  | x :: xs, ⟨hx, hxs⟩ => by
    rw [Operand.toJsonAll, Operand.ofJsonAll]
    exact (Operand.ofJson_toJson hx).bind ((Operand.ofJsonAll_toJsonAll hxs).map _)

theorem Test.ofMembers_toMembers : ∀ {tests : List Test}, Test.AllObey .decoded tests →
    Yields (Test.ofMembers (Test.toMembers tests)) (Test.AllObey .plainTables tests)
      (Test.mapValuesAll Value.truncated tests)
  | [], _ => Yields.ok _
  | ⟨op, x⟩ :: tests, ⟨hx, htests⟩ => by
    rw [Test.toMembers, Test.toMember, Test.ofMembers_key]
    exact (Operand.ofJson_toJson hx).bind ((Test.ofMembers_toMembers htests).map _)

theorem Filter.ofJson_toJson : ∀ {f : Filter}, f.Obeys .decoded →
    Yields (Filter.ofJson f.toJson) (f.Obeys .plainTables) (f.mapValues Value.truncated)
  | .logical connective operands, ⟨_, h⟩ => by
    rw [Filter.toJson, Filter.ofJson_logical]
    exact ((Filter.ofJsonAll_toJsonAll h).map _).with_true
  | .compare field ⟨op, x⟩, ⟨h, hx⟩ => by
    rw [Filter.toJson, Test.toMember, Filter.ofJson_compare h]
    exact ((Operand.ofJson_toJson hx).map _).with_true
  | .function field func args tests, ⟨h, hargs, htests⟩ => by
    have hlast := Test.ofLast_lastItem h.2.2.2 htests (Test.ofMembers_toMembers htests)
    rw [Filter.toJson, Filter.ofJson_call h.1 h.2.1 h.2.2.1, Filter.ofCall_append]
    have hcall : Yields (Operand.ofJsonAll (Operand.toJsonAll args) >>= fun args =>
        (args, ·) <$> Test.ofLast (lastItem tests (Test.toMembers tests)))
        (Operand.AllObey .plainTables args ∧ Test.AllObey .plainTables tests)
        (Operand.mapValuesAll Value.truncated args, Test.mapValuesAll Value.truncated tests) :=
      (Operand.ofJsonAll_toJsonAll hargs).bind (hlast.map _)
    exact (hcall.map _).with_true

theorem Filter.ofJsonAll_toJsonAll : ∀ {fs : List Filter}, Filter.AllObey .decoded fs →
    Yields (Filter.ofJsonAll (Filter.toJsonAll fs)) (Filter.AllObey .plainTables fs)
      (Filter.mapValuesAll Value.truncated fs)
  | [], _ => Yields.ok _
  | f :: fs, ⟨hf, hfs⟩ => by
    rw [Filter.toJsonAll, Filter.ofJsonAll]
    exact (Filter.ofJson_toJson hf).bind ((Filter.ofJsonAll_toJsonAll hfs).map _)

theorem Filter.readOption_toJson : ∀ {f : Option Filter}, Filter.OptionObeys .decoded f →
    Yields (readOption Filter.ofJson (f.map Filter.toJson)) (Filter.OptionObeys .plainTables f)
      (Filter.mapValuesOption Value.truncated f)
  | none, _ => Yields.ok _
  | some _, hf => (Filter.ofJson_toJson hf).map some

theorem Entity.ofJson_toJson : ∀ {e : Entity}, e.Obeys .decoded →
    Yields (Entity.ofJson e.toJson) (e.Obeys .plainTables) (e.mapValues Value.truncated)
  | ⟨name, fields, label⟩, ⟨_, hfields⟩ => by
    rcases hname : isReserved name
    · rw [Entity.ofJson_plain hname]
      exact ((Field.ofJsonAll_toJsonAll hfields).map _).iff (and_iff_right hname).symm
    · obtain ⟨e, he⟩ := Entity.ofJson_reserved hname fields label
      rw [he]
      exact Yields.error (fun h => by cases hname.symm.trans h.1) _

theorem Assignment.ofMembers_toMembers : ∀ {vs : List Assignment}, Assignment.AllObey .decoded vs →
    Yields (Assignment.ofMembers (Assignment.toMembers vs)) (Assignment.AllObey .plainTables vs)
      (Assignment.mapValuesAll Value.truncated vs)
  | [], _ => Yields.ok _
  | ⟨column, x⟩ :: vs, ⟨⟨_, hx⟩, hvs⟩ => by
    rw [Assignment.toMembers, Assignment.ofMembers]
    exact (Operand.ofJson_toJson hx).with_true.bind ((Assignment.ofMembers_toMembers hvs).map _)

theorem Statement.ofMember_toJson : ∀ {s : Statement}, s.Obeys .decoded → ∀ {q : Query},
    q.statement = none → Yields (q.ofMember (s.key, s.toJson)) (s.Obeys .plainTables)
      { q with statement := some (s.mapValues Value.truncated) }
  | .select entity fields, ⟨_, hfields⟩, q, hq => by
    rw [Statement.key, Query.ofMember_select, Query.putStatement_of_none q hq,
      Statement.toJson_select]
    rcases hname : isReserved entity
    · rw [Entity.ofJson_plain hname]
      have hread := Yields.map (Entity.mk entity · none) (Field.ofJsonAll_toJsonAll hfields)
      exact Yields.iff (Yields.map _ (Yields.map _ hread)) (and_iff_right hname).symm
    · obtain ⟨e, he⟩ := Entity.ofJson_reserved hname fields none
      rw [he]
      exact Yields.error (fun h => by cases hname.symm.trans h.1) _
  | .insert entity values, ⟨_, hvalues⟩, q, hq => by
    rw [Statement.key, Query.ofMember_insert, Query.putStatement_of_none q hq, Statement.toJson,
      Json.single, Assignment.ofJson]
    have hread := Assignment.ofMembers_toMembers hvalues
    exact (Yields.map _ (Yields.map _ (Yields.map _ hread))).with_true
  | .update entity values, ⟨_, hvalues⟩, q, hq => by
    rw [Statement.key, Query.ofMember_update, Query.putStatement_of_none q hq, Statement.toJson,
      Json.single, Assignment.ofJson]
    have hread := Assignment.ofMembers_toMembers hvalues
    exact (Yields.map _ (Yields.map _ (Yields.map _ hread))).with_true
  | .delete entity, _, q, hq => by
    rw [Statement.key, Query.ofMember_delete, Query.putStatement_of_none q hq]
    exact Yields.ok _

theorem Statement.ofMembers_toMembers : ∀ {s : Option Statement}, Statement.OptionObeys .decoded s →
    ∀ {q : Query}, q.statement = none → Yields (q.ofMembers (Statement.toMembers s))
      (Statement.OptionObeys .plainTables s)
      { q with statement := Statement.mapValuesOption Value.truncated s }
  | none, _, q, hq => by
    rcases q
    cases hq
    exact Yields.ok _
  | some s, hs, q, hq => by
    rw [Statement.toMembers, Query.ofMembers_single]
    exact Statement.ofMember_toJson hs hq

theorem JoinTarget.ofJson_toJson : ∀ {t : JoinTarget}, t.Obeys .decoded →
    Yields (JoinTarget.ofJson t.toJson) (t.Obeys .plainTables) (t.mapValues Value.truncated)
  | .entity ⟨name, fields, label⟩, ⟨_, he⟩ => by
    by_cases hname : name = "$select"
    · obtain ⟨e, herror⟩ := JoinTarget.ofJson_select fields label
      rw [JoinTarget.toJson, hname, herror]
      refine Yields.error (fun h => ?_) _
      have hplain : isReserved "$select" = false := h.2.1
      exact absurd hplain (by decide)
    · rw [JoinTarget.toJson, JoinTarget.ofJson_entity hname]
      exact ((Entity.ofJson_toJson he).map _).with_true
  | .query q, ⟨h, hq⟩ => by
    rw [JoinTarget.toJson, JoinTarget.ofJson_query h]
    exact ((Query.ofJson_toJson hq).map _).with_true

theorem JoinCondition.ofJson_toJson : ∀ {c : JoinCondition}, c.Obeys .decoded →
    Yields (JoinCondition.ofJson c.toJson) (c.Obeys .plainTables) (c.mapValues Value.truncated)
  | .columns sides, _ => by
    rw [JoinCondition.toJson, JoinCondition.ofJson, JoinSide.mapM_ofJson_toJson]
    exact (Yields.ok _).iff (iff_of_true trivial fun _ _ => trivial)
  | .filter f, hf => by
    rw [JoinCondition.toJson, JoinCondition.ofJson_filter]
    exact (Filter.ofJson_toJson hf).map _

theorem Join.ofJson_toJson : ∀ {j : Join}, j.target.Obeys .decoded → j.condition.Obeys .decoded →
    Yields (Join.ofJson j.toJson) (j.target.Obeys .plainTables ∧ j.condition.Obeys .plainTables)
      (j.mapValues Value.truncated)
  | ⟨target, condition, label⟩, htarget, hcondition => by
    rw [Join.ofJson_members]
    exact (JoinTarget.ofJson_toJson htarget).bind ((JoinCondition.ofJson_toJson hcondition).map _)

theorem Join.ofJsonAll_toJsonAll : ∀ {js : List Join}, Join.AllObey .decoded js →
    Yields (Join.ofJsonAll (Join.toJsonAll js)) (Join.AllObey .plainTables js)
      (Join.mapValuesAll Value.truncated js)
  | [], _ => Yields.ok _
  | ⟨_, _, _⟩ :: _, ⟨⟨_, htarget, hcondition⟩, hjs⟩ => by
    rw [Join.toJsonAll, Join.ofJsonAll]
    exact (Join.ofJson_toJson htarget hcondition).with_true.bind
      ((Join.ofJsonAll_toJsonAll hjs).map _)

theorem Order.ofJsonAll_toJsonAll : ∀ {os : List Order}, Order.AllObey .decoded os →
    Yields (Order.ofJsonAll (Order.toJsonAll os)) (Order.AllObey .plainTables os)
      (Order.mapValuesAll Value.truncated os)
  | [], _ => Yields.ok _
  | ⟨direction, fields⟩ :: os, ⟨hfields, hos⟩ => by
    rw [Order.toJsonAll, Order.ofJsonAll, Order.ofJson_fields]
    exact ((Field.ofJsonAll_toJsonAll hfields).map _).bind ((Order.ofJsonAll_toJsonAll hos).map _)

/-- A query is read back exactly if its tables have plain names, and then with its dates cut off. -/
theorem Query.ofJson_toJson : ∀ {q : Query}, q.Obeys .decoded →
    Yields (Query.ofJson q.toJson) (q.Obeys .plainTables) (q.mapValues Value.truncated)
  | ⟨statement, joins, filter, prepared, orders, groups, distinct, fixed, skip, take, label,
      staged⟩, ⟨hstaged, hs, hjs, hf, hp, hos, hgs, _⟩ => by
    have hempty : staged = {} := hstaged
    subst hempty
    -- The members one by one, each of them read onto what those before it gave. The later ones find
    -- their part still empty, which is what `rfl` says.
    have hstatement := Statement.ofMembers_toMembers hs (show (∅ : Query).statement = none from rfl)
    have hexpand := hstatement.append (Query.ofMembers_expand _ rfl) (Join.ofJsonAll_toJsonAll hjs)
    have hwhere := hexpand.append (Query.ofMembers_where _ rfl) (Filter.readOption_toJson hf)
    have hprepared := hwhere.append (Query.ofMembers_prepared _ rfl) (Filter.readOption_toJson hp)
    have horder := hprepared.append (Query.ofMembers_order _ rfl) (Order.ofJsonAll_toJsonAll hos)
    have hgroup := horder.append (Query.ofMembers_group _ rfl) (Field.ofJsonAll_toJsonAll hgs)
    have hdistinct := hgroup.append_ok (Query.ofMembers_distinct _ rfl distinct)
    have hfixed := hdistinct.append_ok (Query.ofMembers_fixed _ rfl fixed)
    have hskip := hfixed.append_ok (Query.ofMembers_skip _ rfl skip)
    have htake := hskip.append_ok (Query.ofMembers_take _ rfl take)
    have hlabel := htake.append_ok (Query.ofMembers_label _ rfl label)
    rw [Query.toJson_eq_members, Query.ofJson, Query.members]
    refine hlabel.iff ?_
    simp only [Query.Obeys, Law.plainTables, Staged.Obeys, Field.OptionObey,
      JoinTarget.OptionObeys, and_assoc, true_and, and_true]

end

/-- A representable query is read back from its document as it was. -/
theorem Query.round_trip {q : Query} (h : q.Representable) : ofJson q.toJson = .ok q := by
  have hdecoded := Obeys.mono Law.decoded_weaker h
  have hplain := Obeys.mono Law.plainTables_weaker h
  have hwhole := Obeys.mono Law.fixing_truncated_weaker (Obeys.mono Law.wholeDates_weaker h)
  exact (ofJson_toJson hdecoded q).mpr ⟨hplain, mapValues_eq_self hwhole⟩

/-- Ten open orders with their customers, whose names begin with a letter. -/
def openOrders : Query :=
  { statement := some (.select "orders" [.name "id", .qualified "orders" "total",
      .labelled "customer" "c.name", .aggregate "items" .count "orders.item",
      .function "day" "date" [.field (.name "created"), .value (.float 1.5)],
      .constant (.integer 7) none])
    joins := [⟨.query { statement := some (.select "customers" []), staged := {} },
      .columns [⟨"orders", ["customer"]⟩, ⟨"customers", ["id"]⟩], some "c"⟩]
    filter := some (.logical .and [
      .compare "status" ⟨.isIn, .list [.value (.string "open"), .value .null]⟩,
      .function "name" "startswith" [.value (.string "A")]
        [⟨.ne, .value (.bool false)⟩, ⟨.eq, .value (.bool true)⟩]])
    orders := [⟨.descending, [.name "total"]⟩]
    take := some 10
    staged := {} }

theorem Query.round_trip_openOrders :
    openOrders.Representable ∧ Query.ofJson openOrders.toJson = .ok openOrders := by
  have h : openOrders.Representable := by
    have hfloat : Float.isFinite 1.5 = true := rfl
    simp [hfloat, openOrders, Query.Representable, Law.representable, Query.Obeys,
      Statement.OptionObeys, Statement.Obeys, Statement.IsPlain, Field.AllObey, Field.Obeys,
      Field.IsReadable, Field.select, Text.splitFirst?, isReserved, Field.otherKeys, Operand.AllObey, Operand.Obeys,
      Operand.IsReadable, Value.IsFinite, Value.IsWhole, Join.AllObey, JoinTarget.Obeys,
      JoinTarget.IsReadable, JoinCondition.Obeys, Query.isSelect, Query.selectedFields?,
      Filter.OptionObeys, Filter.Obeys, Filter.AllObey, Filter.IsReadable, Filter.otherKeys,
      Test.Obeys, Test.AllObey, Order.AllObey, Staged.Obeys, Field.OptionObey,
      JoinTarget.OptionObeys]
  exact ⟨h, Query.round_trip h⟩

end QueryCompiler
