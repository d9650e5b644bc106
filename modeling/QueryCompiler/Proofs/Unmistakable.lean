import QueryCompiler.Proofs.RoundTrip

/-!
# What a document tells of its query

A document does not tell everything of its query: not what is staged, not the fractions of
milliseconds, not where the name of a column was cut. Here is what it does tell, part by part: of a
field (`Field.eq_function` and its like), of an operand (`Operand.eq_field` and its like), of a
filter (`Filter.eq_logical` and its like) and of a query (`Query.sameParts_of_toJson_eq`).

It tells that only where no name is taken for a key and every float is a number, as
`Law.unmistakable` says. A name can be taken for a key only if what stands under it may stand under
the key as well (`Query.MayHold`). So under `$order`, where a query has an array, there may be a
field, which has none, but no joined table, which has one.
-/

namespace QueryCompiler

theorem Json.single_inj {key key' : String} {value value' : Json} :
    single key value = single key' value' ↔ key = key' ∧ value = value' := by
  simp [single]

open Json (single single_inj)

/-- Nothing else has such a document under the field's label: no field without a label, no date and
no query. -/
def Field.IsUnmistakable : Field → Prop
  | .labelled label _ => label ∉ ["$name", "$value", "$date", "$delete", "$alias"]
  | .function label _ _ => label ∉ ["$select", "$where", "$prepared"]
  | .constant _ (some label) => label ∉ ["$insert", "$update"]
  | _ => True

/-- A call is not taken for a comparison, and none of its tests falls together with another. -/
def Filter.IsUnmistakable : Filter → Prop
  | .function _ func _ tests =>
    ComparisonOp.ofKey? ("$" ++ func) = none ∧ (tests.map Test.op).Nodup
  | _ => True

/-- A joined table is not taken for a query, and it does not lose its fields to its label. -/
def Entity.IsUnmistakable : Entity → Prop
  | ⟨name, _, none⟩ => name ∉ ["$order", "$group"]
  | ⟨name, _, some _⟩ => name ≠ "$as"

/-- What a query has to be like for its document not to be that of a query with another
statement. -/
def Law.unmistakable : Law where
  value := Value.IsFinite
  field := Field.IsUnmistakable
  filter := Filter.IsUnmistakable
  entity := Entity.IsUnmistakable

theorem Field.Obeys.isUnmistakable : ∀ {f : Field}, f.Obeys .unmistakable → f.IsUnmistakable
  | .name _, h => h
  | .qualified _ _, h => h
  | .labelled _ _, h => h
  | .aggregate _ _ _, h => h
  | .function _ _ _, h => h.1
  | .constant _ _, h => h.1

theorem Filter.Obeys.isUnmistakable : ∀ {f : Filter}, f.Obeys .unmistakable → f.IsUnmistakable
  | .logical _ _, h => h.1
  | .compare _ _, h => h.1
  | .function _ _ _ _, h => h.1

/-- Every query that comes back from its document as it was obeys the law. -/
theorem Law.unmistakable_weaker : Law.unmistakable.Weaker .representable := by
  have hkeys : ∀ {name : String} {keys : List String}, isReserved name = false →
      keys.all isReserved = true → name ∉ keys := by
    intro name keys hname hkeys hmem
    rw [List.all_eq_true.mp hkeys name hmem] at hname
    cases hname
  refine ⟨fun _ h => h.1, fun f h => ?_, fun _ _ => trivial, fun f h => ?_, fun e h => ?_,
    fun _ _ => trivial, fun _ _ => trivial, fun _ _ => trivial, fun _ _ => trivial,
    fun _ _ => trivial, fun _ _ => trivial⟩
  · rcases f with _ | _ | _ | _ | _ | ⟨_, _ | label⟩
    case name | qualified | aggregate | constant.none => trivial
    case labelled => exact hkeys h (by decide)
    case function => exact hkeys h.1 (by decide)
    case constant.some => exact hkeys (h label rfl) (by decide)
  · rcases f with _ | _ | _
    case logical | compare => trivial
    case function => exact ⟨ComparisonOp.ofKey?_mark h.2.2.1, h.2.2.2⟩
  · rcases e with ⟨name, _, _ | _⟩
    · exact hkeys h (by decide)
    · rintro rfl
      exact absurd h (show ¬ isReserved "$as" = false by decide)

theorem Aggregate.key_injective : Function.Injective key :=
  injective_of_eq_some ofKey?_key

theorem Aggregate.key_ne_value (aggregate : Aggregate) : aggregate.key ≠ "$value" := by
  cases aggregate <;> decide

theorem Aggregate.key_ne_date (aggregate : Aggregate) : aggregate.key ≠ "$date" := by
  cases aggregate <;> decide

theorem Connective.key_injective : Function.Injective key :=
  injective_of_eq_some ofKey?_key

theorem Direction.key_injective : Function.Injective key :=
  injective_of_eq_some ofKey?_key

/-! ## Literals -/

/-- Of a literal that is no date the document tells all, and of a date all that is written. -/
theorem Value.truncated_eq_of_toJson_eq {v v' : Value} (h : v.IsFinite) (h' : v'.IsFinite)
    (heq : v.toJson = v'.toJson) : v.truncated = v'.truncated :=
  Except.ok.inj ((ofJson_toJson h).symm.trans ((congrArg ofJson heq).trans (ofJson_toJson h')))

theorem Value.isNull_eq {v v' : Value} (h : v.IsFinite) (h' : v'.IsFinite)
    (heq : v.toJson = v'.toJson) : v.isNull = v'.isNull := by
  have hnull : ∀ v : Value, v.truncated.isNull = v.isNull := by
    rintro (_ | _ | _ | _ | _ | _) <;> rfl
  rw [← hnull v, truncated_eq_of_toJson_eq h h' heq, hnull]

theorem Value.toJson_ne_array (v : Value) (items : List Json) : v.toJson ≠ .array items := by
  cases v with
  | float x =>
    rw [toJson]
    split_ifs
    · intro h
      cases h
    · intro h
      cases h
  | _ =>
    intro h
    cases h

/-- The only literals whose documents are objects are dates. -/
theorem Value.exists_date_of_toJson {v : Value} {members : List (String × Json)}
    (h : v.toJson = .object members) : ∃ text, members = [("$date", .string text)] := by
  cases v with
  | float x =>
    rw [toJson] at h
    split_ifs at h
  | dateTime t =>
    cases h
    exact ⟨_, rfl⟩
  | _ => cases h

theorem Value.exists_date_of_toJson_single {v : Value} {key : String} {j : Json}
    (h : v.toJson = single key j) : key = "$date" ∧ ∃ text, j = .string text := by
  obtain ⟨text, hmembers⟩ := exists_date_of_toJson h
  obtain ⟨hkey, hj⟩ := Prod.mk.inj (List.cons.inj hmembers).1
  exact ⟨hkey, text, hj⟩

theorem Value.toJson_ne_single {v : Value} {key : String} {j : Json} (h : key ≠ "$date") :
    v.toJson ≠ single key j :=
  fun hv => h (exists_date_of_toJson_single hv).1

/-! ## Fields -/

namespace Field

variable {f : Field} {label : String}

theorem eq_name_or_qualified {text : String} (h : f.IsUnmistakable)
    (heq : f.toJson = single "$name" (.string text)) :
    f = name text ∨ ∃ entity column, f = qualified entity column ∧ entity ++ "." ++ column = text := by
  rcases f with _ | ⟨entity, column⟩ | _ | _ | _ | ⟨_, _ | _⟩
  all_goals simp_all [toJson, single, IsUnmistakable]

theorem eq_labelled {expression : String} (h : (labelled label expression).IsUnmistakable)
    (heq : f.toJson = single label (.string expression)) : f = labelled label expression := by
  rcases f with _ | _ | _ | _ | _ | ⟨_, _ | _⟩
  all_goals simp_all [toJson, single, IsUnmistakable]

/-- A document of one member under a label is that of an aggregate, of a call or of a literal with
this label. -/
theorem exists_of_definition {key : String} {j : Json}
    (hvalue : ∀ v : Value, v.toJson ≠ single key j) (heq : f.toJson = single label (single key j)) :
    (∃ aggregate text, f = .aggregate label aggregate text ∧ key = aggregate.key ∧
        j = .string text) ∨
      (∃ func args, f = function label func args ∧ key = "$" ++ func ∧
        j = .array (Operand.toJsonAll args)) ∨
      ∃ v, f = constant v (some label) ∧ key = "$value" ∧ j = v.toJson := by
  rcases f with _ | _ | _ | _ | _ | ⟨_, _ | _⟩
  all_goals obtain ⟨hlabel, hinner⟩ := single_inj.mp heq
  case name | qualified | labelled => cases hinner
  case constant.none => exact absurd hinner (hvalue _)
  all_goals obtain ⟨hkey, hj⟩ := single_inj.mp hinner
  case aggregate => exact .inl ⟨_, _, by rw [hlabel], hkey.symm, hj.symm⟩
  case function => exact .inr (.inl ⟨_, _, by rw [hlabel], hkey.symm, hj.symm⟩)
  case constant.some => exact .inr (.inr ⟨_, by rw [hlabel], hkey.symm, hj.symm⟩)

theorem eq_aggregate {aggregate : Aggregate} {text : String}
    (heq : f.toJson = single label (single aggregate.key (.string text))) :
    f = .aggregate label aggregate text := by
  obtain ⟨_, _, rfl, hkey, htext⟩ | ⟨_, _, rfl, -, hitems⟩ | ⟨_, rfl, hkey, -⟩ :=
    exists_of_definition (fun _ => Value.toJson_ne_single aggregate.key_ne_date) heq
  · rw [Aggregate.key_injective hkey, Json.string.inj htext]
  · cases hitems
  · exact absurd hkey aggregate.key_ne_value

theorem eq_function {func : String} {items : List Json}
    (heq : f.toJson = single label (single ("$" ++ func) (.array items))) :
    ∃ args, f = function label func args ∧ Operand.toJsonAll args = items := by
  have hvalue : ∀ v : Value, v.toJson ≠ single ("$" ++ func) (.array items) := by
    intro v hv
    obtain ⟨-, text, htext⟩ := Value.exists_date_of_toJson_single hv
    cases htext
  obtain ⟨_, _, rfl, -, htext⟩ | ⟨_, args, rfl, hkey, hitems⟩ | ⟨v, rfl, -, hitems⟩ :=
    exists_of_definition hvalue heq
  · cases htext
  · exact ⟨args, by rw [eq_of_mark_eq hkey], (Json.array.inj hitems).symm⟩
  · exact absurd hitems.symm (v.toJson_ne_array items)

theorem eq_constant {value : Value} (h : f.IsUnmistakable)
    (heq : f.toJson = single "$value" value.toJson) :
    ∃ v, f = constant v none ∧ v.toJson = value.toJson := by
  rcases f with _ | _ | ⟨label, _⟩ | ⟨_, aggregate, _⟩ | _ | ⟨v, _ | _⟩
  all_goals obtain ⟨hkey, hj⟩ := single_inj.mp heq
  case name | qualified => exact absurd hkey (by decide)
  case labelled => exact (h (by simp [hkey])).elim
  case aggregate => exact absurd hj.symm (Value.toJson_ne_single aggregate.key_ne_date)
  case function =>
    obtain ⟨-, text, htext⟩ := Value.exists_date_of_toJson_single hj.symm
    cases htext
  case constant.none => exact ⟨v, rfl, hj⟩
  case constant.some => exact absurd hj.symm (Value.toJson_ne_single (by decide))

theorem eq_namedConstant {value : Value}
    (heq : f.toJson = single label (single "$value" value.toJson)) :
    ∃ v, f = constant v (some label) ∧ v.toJson = value.toJson := by
  obtain ⟨aggregate, _, rfl, hkey, -⟩ | ⟨_, args, rfl, -, hitems⟩ | ⟨v, rfl, -, hv⟩ :=
    exists_of_definition (fun _ => Value.toJson_ne_single (by decide)) heq
  · exact absurd hkey.symm aggregate.key_ne_value
  · exact absurd hitems (value.toJson_ne_array _)
  · exact ⟨v, rfl, hv.symm⟩

theorem isEmpty_eq {fs fs' : List Field} (h : toJsonAll fs = toJsonAll fs') :
    fs.isEmpty = fs'.isEmpty := by
  rcases fs with _ | _ <;> rcases fs' with _ | _
  all_goals first
    | rfl
    | cases h

end Field

/-! ## Operands -/

/-- What may stand under a key of a query's document. -/
inductive Query.MayHold : String → Json → Prop
  | statement (s : Statement) : MayHold s.key s.toJson
  | join (join : Join) : MayHold "$expand" join.toJson
  | joins (join : Join) (items : List Json) : MayHold "$expand" (.array (join.toJson :: items))
  | filter (f : Filter) : MayHold "$where" f.toJson
  | prepared (f : Filter) : MayHold "$prepared" f.toJson
  | orders (items : List Json) : MayHold "$order" (.array items)
  | groups (items : List Json) : MayHold "$group" (.array items)
  | flag {key : String} (b : Bool) : MayHold key (.bool b)
  | count {key : String} (n : ℤ) : MayHold key (.integer n)
  | label (text : String) : MayHold "$alias" (.string text)

theorem Query.mayHold_of_mem_members {q : Query} {key : String} {j : Json}
    (h : (key, j) ∈ q.members) : MayHold key j := by
  have hone : ∀ {name : String} {value : Json}, (key, j) ∈ [(name, value)] → MayHold name value →
      MayHold key j := by
    intro name value h hvalue
    obtain ⟨rfl, rfl⟩ := Prod.mk.inj (List.mem_singleton.mp h)
    exact hvalue
  rcases q with ⟨statement, joins, filter, prepared, orders, groups, distinct, fixed, skip, take,
    label, _⟩
  simp only [members, List.mem_append, or_assoc] at h
  rcases h with h | h | h | h | h | h | h | h | h | h | h
  · rcases statement with _ | s
    · cases h
    · exact hone h (.statement s)
  · rcases joins with _ | ⟨join, _ | ⟨second, rest⟩⟩
    · cases h
    · exact hone h (.join join)
    · exact hone h (.joins join _)
  · rcases filter with _ | f
    · cases h
    · exact hone h (.filter f)
  · rcases prepared with _ | f
    · cases h
    · exact hone h (.prepared f)
  · rcases orders with _ | ⟨order, rest⟩
    · cases h
    · exact hone h (.orders _)
  · rcases groups with _ | ⟨group, rest⟩
    · cases h
    · exact hone h (.groups _)
  · rcases distinct with _ | _
    · cases h
    · exact hone h (.flag true)
  · rcases fixed with _ | _
    · cases h
    · exact hone h (.flag true)
  · rcases skip with _ | n
    · cases h
    · exact hone h (.count n.toNat)
  · rcases take with _ | n
    · cases h
    · exact hone h (.count n.toNat)
  · rcases label with _ | text
    · cases h
    · exact hone h (.label text)

theorem Query.mayHold_of_toJson {q : Query} {key : String} {j : Json}
    (h : q.toJson = single key j) : key ∈ keys ∧ MayHold key j := by
  rw [toJson_eq_members] at h
  have hmem : (key, j) ∈ q.members := by
    rw [Json.object.inj h]
    exact List.mem_singleton_self _
  exact ⟨key_mem_keys hmem, mayHold_of_mem_members hmem⟩

/-- A join has several members. -/
theorem Join.toJson_ne_single (join : Join) (key : String) (j : Json) :
    join.toJson ≠ single key j := by
  rcases join with ⟨_, _, _⟩
  intro h
  cases h

/-- What stands under the one key of a filter: operands, a test or a call. -/
theorem Filter.cases_of_toJson {f : Filter} {inner : String} {j : Json}
    (h : f.toJson = single inner j) :
    (∃ items, j = .array items) ∨ (∃ t : Test, j = .object [t.toMember]) ∨
      ∃ func items, j = single ("$" ++ func) (.array items) := by
  rcases f with _ | _ | _
  all_goals obtain ⟨-, rfl⟩ := single_inj.mp h
  case logical => exact .inl ⟨_, rfl⟩
  case compare => exact .inr (.inl ⟨_, rfl⟩)
  case function => exact .inr (.inr ⟨_, _, rfl⟩)

namespace Query.MayHold

variable {key inner : String} {j k : Json}

theorem key_of_string {text : String} (h : MayHold key k) (hk : k = .string text) :
    key = "$delete" ∨ key = "$alias" := by
  cases h with
  | statement s =>
    cases s with
    | delete => exact .inl rfl
    | _ => cases hk
  | join join =>
    obtain ⟨_, hjoin⟩ := join.toJson_eq_object
    cases hjoin.symm.trans hk
  | filter f | prepared f =>
    obtain ⟨_, hf⟩ := f.toJson_eq_object
    cases hf.symm.trans hk
  | label => exact .inr rfl
  | _ => cases hk

/-- Under a key with an object of one member there is a statement or a filter. -/
theorem cases_of_single (h : MayHold key k) (hk : k = single inner j) :
    (key ∈ ["$select", "$where", "$prepared"] ∧ ∃ items, j = .array items) ∨
      (key ∈ ["$insert", "$update"] ∧ ∃ members, j = .object members) ∨
      (∃ t : Test, j = .object [t.toMember]) ∨
      ∃ func items, j = single ("$" ++ func) (.array items) := by
  cases h with
  | statement s =>
    cases s with
    | select => exact .inl ⟨by simp [Statement.key], _, (single_inj.mp hk).2.symm⟩
    | insert | update =>
      exact .inr (.inl ⟨by simp [Statement.key], _, (single_inj.mp hk).2.symm⟩)
    | delete => cases hk
  | join join => exact absurd hk (join.toJson_ne_single _ _)
  | filter f | prepared f =>
    rcases f.cases_of_toJson hk with hitems | htest | hcall
    · exact .inl ⟨by decide, hitems⟩
    · exact .inr (.inr (.inl htest))
    · exact .inr (.inr (.inr hcall))
  | _ => cases hk

end Query.MayHold

theorem Value.toJson_ne_query (v : Value) (q : Query) : v.toJson ≠ q.toJson := by
  intro h
  obtain ⟨text, hdate⟩ := exists_date_of_toJson (h.trans q.toJson_eq_members)
  have hquery : q.toJson = single "$date" (.string text) := by rw [q.toJson_eq_members, hdate, single]
  exact absurd (Query.mayHold_of_toJson hquery).1 (by decide)

theorem Value.toJson_ne_test (v : Value) (t : Test) : v.toJson ≠ .object [t.toMember] := by
  rcases t with ⟨op, x⟩
  have hkey : op.key ≠ "$date" := by cases op <;> decide
  exact toJson_ne_single hkey

namespace Field

variable {f : Field}

theorem toJson_ne_value (h : f.IsUnmistakable) (v : Value) : f.toJson ≠ v.toJson := by
  intro heq
  rcases f with _ | _ | ⟨label, _⟩ | _ | _ | ⟨_, _ | _⟩
  all_goals obtain ⟨hkey, text, hj⟩ := Value.exists_date_of_toJson_single heq.symm
  case name | qualified | constant.none => exact absurd hkey (by decide)
  case labelled => exact h (by simp [hkey])
  all_goals cases hj

/-- What stands under a label is not what a query has under this key. -/
theorem toJson_ne_query (h : f.IsUnmistakable) (q : Query) : f.toJson ≠ q.toJson := by
  intro heq
  rcases f with _ | _ | ⟨label, text⟩ | ⟨label, aggregate, text⟩ | ⟨label, func, args⟩ |
    ⟨v, _ | label⟩
  all_goals obtain ⟨hkey, hheld⟩ := Query.mayHold_of_toJson heq.symm
  case name | qualified | constant.none => exact absurd hkey (by decide)
  case labelled =>
    rcases hheld.key_of_string rfl with rfl | rfl
    · exact h (by decide)
    · exact h (by decide)
  case aggregate =>
    rcases hheld.cases_of_single rfl with ⟨-, _, hj⟩ | ⟨-, _, hj⟩ | ⟨_, hj⟩ | ⟨_, _, hj⟩
    all_goals cases hj
  case function =>
    rcases hheld.cases_of_single rfl with ⟨hlabel, -⟩ | ⟨-, _, hj⟩ | ⟨_, hj⟩ | ⟨_, _, hj⟩
    · exact h hlabel
    all_goals cases hj
  case constant.some =>
    rcases hheld.cases_of_single rfl with ⟨-, _, hj⟩ | ⟨hlabel, -⟩ | ⟨t, hj⟩ | ⟨_, _, hj⟩
    · exact v.toJson_ne_array _ hj
    · exact h hlabel
    · exact v.toJson_ne_test t hj
    · obtain ⟨-, _, hitems⟩ := Value.exists_date_of_toJson_single hj
      cases hitems

end Field

namespace Operand

variable {x : Operand} (h : x.Obeys .unmistakable)

include h

theorem eq_value {v : Value} (heq : x.toJson = v.toJson) :
    ∃ v', x = value v' ∧ v'.toJson = v.toJson := by
  cases x with
  | value v' => exact ⟨v', rfl, heq⟩
  | field f => exact absurd heq (Field.toJson_ne_value h.2.isUnmistakable v)
  | list xs => exact absurd heq.symm (v.toJson_ne_array _)
  | query q => exact absurd heq.symm (v.toJson_ne_query q)

theorem eq_field {f : Field} (hf : f.IsUnmistakable) (heq : x.toJson = f.toJson) :
    ∃ f', x = field f' ∧ f'.toJson = f.toJson := by
  cases x with
  | value v => exact absurd heq.symm (Field.toJson_ne_value hf v)
  | field f' => exact ⟨f', rfl, heq⟩
  | list xs =>
    obtain ⟨_, hmembers⟩ := f.toJson_eq_object
    cases heq.trans hmembers
  | query q => exact absurd heq.symm (Field.toJson_ne_query hf q)

theorem eq_list {items : List Json} (heq : x.toJson = .array items) :
    ∃ xs, x = list xs ∧ toJsonAll xs = items := by
  cases x with
  | value v => exact absurd heq (v.toJson_ne_array items)
  | field f =>
    obtain ⟨_, hmembers⟩ := f.toJson_eq_object
    cases hmembers.symm.trans heq
  | list xs => exact ⟨xs, rfl, Json.array.inj heq⟩
  | query q => cases q.toJson_eq_members.symm.trans heq

theorem eq_query {q : Query} (heq : x.toJson = q.toJson) :
    ∃ q', x = query q' ∧ q'.toJson = q.toJson := by
  cases x with
  | value v => exact absurd heq (v.toJson_ne_query q)
  | field f => exact absurd heq (Field.toJson_ne_query h.2.isUnmistakable q)
  | list xs => cases heq.trans q.toJson_eq_members
  | query q' => exact ⟨q', rfl, heq⟩

end Operand

/-! ## Tests and filters -/

/-- The last item of a call tells the tests. -/
theorem Test.toMembers_eq_of_lastItem {tests tests' : List Test} (h : (tests.map Test.op).Nodup)
    (h' : (tests'.map Test.op).Nodup)
    (heq : lastItem tests (toMembers tests) = lastItem tests' (toMembers tests')) :
    toMembers tests = toMembers tests' := by
  have hdate : ∀ {v : Value} {tests : List Test}, (tests.map Test.op).Nodup →
      v.toJson ≠ .object (Json.distinctMembers (toMembers tests)) := by
    intro v tests h heq
    obtain ⟨text, hmembers⟩ := Value.exists_date_of_toJson heq
    rw [Json.distinctMembers_eq_self (nodup_keys_toMembers h)] at hmembers
    have hnames := namesTests_toMembers tests
    rw [hmembers] at hnames
    revert hnames
    simp [Json.namesTests, ComparisonOp.ofKey?_date]
  unfold lastItem at heq
  split at heq
  · split at heq
    · simp only [toMembers, toMember, Operand.toJson, heq]
    · exact absurd heq (hdate h')
  · split at heq
    · exact absurd heq.symm (hdate h)
    · rw [Json.distinctMembers_eq_self (nodup_keys_toMembers h),
        Json.distinctMembers_eq_self (nodup_keys_toMembers h')] at heq
      exact Json.object.inj heq

namespace Filter

variable {f : Filter}

theorem eq_logical {connective : Connective} {items : List Json}
    (heq : f.toJson = single connective.key (.array items)) :
    ∃ operands, f = logical connective operands ∧ toJsonAll operands = items := by
  rcases f with ⟨_, operands⟩ | _ | _
  all_goals
    obtain ⟨hkey, hitems⟩ := single_inj.mp heq
    cases hitems
  exact ⟨operands, by rw [Connective.key_injective hkey], rfl⟩

theorem eq_compare {field : String} {t : Test} (h : f.IsUnmistakable)
    (heq : f.toJson = single field (.object [t.toMember])) :
    ∃ t', f = compare field t' ∧ t'.toMember = t.toMember := by
  rcases f with _ | ⟨_, t'⟩ | ⟨_, func, _, _⟩
  all_goals obtain ⟨hkey, hj⟩ := single_inj.mp heq
  case logical => cases hj
  case compare => exact ⟨t', by rw [hkey], (List.cons.inj (Json.object.inj hj)).1⟩
  case function =>
    obtain ⟨op, x⟩ := t
    have hfunc := h.1
    rw [(single_inj.mp hj).1, ComparisonOp.ofKey?_key] at hfunc
    cases hfunc

theorem eq_function {field func : String} {args : List Json} {last : Json}
    (hfunc : ComparisonOp.ofKey? ("$" ++ func) = none)
    (heq : f.toJson = single field (single ("$" ++ func) (.array (args ++ [last])))) :
    ∃ args' tests, f = function field func args' tests ∧ Operand.toJsonAll args' = args ∧
      lastItem tests (Test.toMembers tests) = last := by
  rcases f with _ | ⟨_, op, x⟩ | ⟨_, _, args', tests⟩
  all_goals obtain ⟨hkey, hj⟩ := single_inj.mp heq
  case logical => cases hj
  case compare =>
    rw [← (single_inj.mp hj).1, ComparisonOp.ofKey?_key] at hfunc
    cases hfunc
  case function =>
    obtain ⟨hmark, hitems⟩ := single_inj.mp hj
    obtain ⟨hargs, hlast⟩ := List.append_singleton_inj.mp (Json.array.inj hitems)
    exact ⟨args', tests, by rw [hkey, eq_of_mark_eq hmark], hargs, hlast⟩

end Filter

/-! ## Members -/

section Members

variable {key : String}

theorem optionalMember_injective : Function.Injective (optionalMember key) := by
  rintro (_ | value) (_ | value') h
  all_goals simp_all [optionalMember]

theorem listMember_injective : Function.Injective (listMember key) := by
  rintro (_ | ⟨item, items⟩) (_ | ⟨item', items'⟩) h
  all_goals simp_all [listMember]

theorem flagMember_injective : Function.Injective (flagMember key) := by
  rintro (_ | _) (_ | _) h
  all_goals simp_all [flagMember]

theorem countMember_injective : Function.Injective (countMember key) := by
  intro count count' h
  refine Option.map_injective ?_ (optionalMember_injective h)
  intro n n' hn
  exact UInt64.toNat_inj.mp (Int.ofNat.inj (Json.integer.inj hn))

/-- Whether a single item stands for itself can be told, since no item is an array. -/
theorem oneOrAll_inj {items items' : List Json}
    (h : ∀ item ∈ items, ∃ members, item = .object members)
    (h' : ∀ item ∈ items', ∃ members, item = .object members)
    (heq : oneOrAll items = oneOrAll items') : items = items' := by
  rcases items with _ | ⟨item, _ | ⟨_, _⟩⟩ <;> rcases items' with _ | ⟨item', _ | ⟨_, _⟩⟩
  all_goals simp_all [oneOrAll]
  all_goals
    obtain ⟨members, rfl⟩ := h'
    cases heq

theorem itemsMember_inj {items items' : List Json}
    (h : ∀ item ∈ items, ∃ members, item = .object members)
    (h' : ∀ item ∈ items', ∃ members, item = .object members)
    (heq : itemsMember key items = itemsMember key items') : items = items' := by
  unfold itemsMember at heq
  split_ifs at heq with hnil hnil' hnil'
  · rw [List.isEmpty_iff.mp hnil, List.isEmpty_iff.mp hnil']
  · rw [List.cons.injEq, Prod.mk.injEq] at heq
    exact oneOrAll_inj h h' heq.1.2

end Members

/-- All keys are of one class. -/
def KeysWithin (keys : List String) (members : List (String × Json)) : Prop :=
  ∀ m ∈ members, m.1 ∈ keys

theorem KeysWithin.flatten {classes : List (List String)} {ms : List (List (String × Json))}
    (h : List.Forall₂ KeysWithin classes ms) : KeysWithin classes.flatten ms.flatten := by
  induction h with
  | nil => exact List.forall_mem_nil _
  | cons hm _ ih =>
    intro member hmember
    rw [List.flatten_cons, List.mem_append] at hmember ⊢
    exact hmember.imp (hm member) (ih member)

/-- Members in a row can be told apart by the classes of their keys. -/
theorem eq_of_flatten_eq : ∀ {classes : List (List String)} {ms ms' : List (List (String × Json))},
    classes.flatten.Nodup → List.Forall₂ KeysWithin classes ms →
      List.Forall₂ KeysWithin classes ms' → ms.flatten = ms'.flatten → ms = ms'
  | [], _, _, _, .nil, .nil, _ => rfl
  | keys :: classes, m :: ms, m' :: ms', hnodup, .cons hm hms, .cons hm' hms', heq => by
    rw [List.flatten_cons, List.nodup_append] at hnodup
    have hfilter : ∀ {m : List (String × Json)} {ms : List (List (String × Json))},
        KeysWithin keys m → List.Forall₂ KeysWithin classes ms →
          (m ++ ms.flatten).filter (fun member => member.1 ∈ keys) = m := by
      intro m ms hm hms
      rw [List.filter_append, List.filter_eq_self.mpr fun member h => decide_eq_true (hm member h),
        List.filter_eq_nil_iff.mpr, List.append_nil]
      intro member hmember hkey
      exact hnodup.2.2 _ (of_decide_eq_true hkey) _ (KeysWithin.flatten hms member hmember) rfl
    rw [List.flatten_cons, List.flatten_cons] at heq
    have hfirst : m = m' := by rw [← hfilter hm hms, heq, hfilter hm' hms']
    subst hfirst
    rw [eq_of_flatten_eq hnodup.2.1 hms hms' (List.append_cancel_left heq)]

namespace Query

/-- The keys of a query's document, part by part. -/
def keyClasses : List (List String) :=
  [statementKeys, ["$expand"], ["$where"], ["$prepared"], ["$order"], ["$group"], ["$distinct"],
    ["$fixed"], ["$skip"], ["$take"], ["$alias"]]

/-- The members of a query's document, part by part. -/
def parts (q : Query) : List (List (String × Json)) :=
  [Statement.toMembers q.statement, itemsMember "$expand" (Join.toJsonAll q.joins),
    Filter.toMembers "$where" q.filter, Filter.toMembers "$prepared" q.prepared,
    listMember "$order" (Order.toJsonAll q.orders), listMember "$group" (Field.toJsonAll q.groups),
    flagMember "$distinct" q.distinct, flagMember "$fixed" q.fixed, countMember "$skip" q.skip,
    countMember "$take" q.take, optionalMember "$alias" (q.label.map .string)]

theorem keysWithin_parts (q : Query) : List.Forall₂ KeysWithin keyClasses q.parts := by
  have hone : ∀ {key : String} {members : List (String × Json)}, (∀ m ∈ members, m.1 = key) →
      KeysWithin [key] members := fun h m hm => List.mem_singleton.mpr (h m hm)
  exact .cons (fun _ => Statement.key_mem_of_mem_toMembers) <|
    .cons (hone fun _ => key_eq_of_mem_itemsMember) <|
    .cons (hone fun _ => Filter.key_eq_of_mem_toMembers) <|
    .cons (hone fun _ => Filter.key_eq_of_mem_toMembers) <|
    .cons (hone fun _ => key_eq_of_mem_listMember) <|
    .cons (hone fun _ => key_eq_of_mem_listMember) <|
    .cons (hone fun _ => key_eq_of_mem_flagMember) <|
    .cons (hone fun _ => key_eq_of_mem_flagMember) <|
    .cons (hone fun _ => key_eq_of_mem_optionalMember) <|
    .cons (hone fun _ => key_eq_of_mem_optionalMember) <|
    .cons (hone fun _ => key_eq_of_mem_optionalMember) .nil

theorem parts_eq {q q' : Query} (h : q.toJson = q'.toJson) : q.parts = q'.parts := by
  have hflatten : ∀ q : Query, q.parts.flatten = q.members := fun q => by
    simp [parts, members, List.append_assoc]
  refine eq_of_flatten_eq (by decide) q.keysWithin_parts q'.keysWithin_parts ?_
  rw [toJson_eq_members, toJson_eq_members] at h
  rw [hflatten, hflatten, Json.object.inj h]

/-- Two queries agree in what their documents tell of them. -/
structure SameParts (q q' : Query) : Prop where
  statement : Statement.toMembers q.statement = Statement.toMembers q'.statement
  joins : Join.toJsonAll q.joins = Join.toJsonAll q'.joins
  filter : Filter.toMembers "$where" q.filter = Filter.toMembers "$where" q'.filter
  prepared : Filter.toMembers "$prepared" q.prepared = Filter.toMembers "$prepared" q'.prepared
  orders : Order.toJsonAll q.orders = Order.toJsonAll q'.orders
  groups : Field.toJsonAll q.groups = Field.toJsonAll q'.groups
  distinct : q.distinct = q'.distinct
  fixed : q.fixed = q'.fixed
  skip : q.skip = q'.skip
  take : q.take = q'.take
  label : q.label = q'.label

theorem sameParts_of_toJson_eq {q q' : Query} (h : q.toJson = q'.toJson) : q.SameParts q' := by
  have hobjects : ∀ joins : List Join, ∀ item ∈ Join.toJsonAll joins,
      ∃ members, item = .object members := by
    intro joins
    induction joins with
    | nil => exact List.forall_mem_nil _
    | cons join joins ih => exact List.forall_mem_cons.mpr ⟨join.toJson_eq_object, ih⟩
  have hparts := parts_eq h
  simp only [parts, List.cons.injEq, and_true] at hparts
  obtain ⟨hs, hj, hf, hp, ho, hg, hd, hx, hskip, htake, hl⟩ := hparts
  exact ⟨hs, itemsMember_inj (hobjects _) (hobjects _) hj, hf, hp, listMember_injective ho,
    listMember_injective hg, flagMember_injective hd, flagMember_injective hx,
    countMember_injective hskip, countMember_injective htake,
    Option.map_injective (fun _ _ => Json.string.inj) (optionalMember_injective hl)⟩

end Query

/-! ## Statements -/

theorem JoinSide.toJson_injective : Function.Injective toJson := fun side side' h =>
  Except.ok.inj (side.ofJson_toJson.symm.trans ((congrArg ofJson h).trans side'.ofJson_toJson))

theorem Join.eq_of_toJson {target target' : JoinTarget} {condition condition' : JoinCondition}
    {label label' : Option String}
    (h : toJson ⟨target, condition, label⟩ = toJson ⟨target', condition', label'⟩) :
    target.toJson = target'.toJson ∧ condition.toJson = condition'.toJson ∧ label = label' := by
  simp only [toJson, Json.object.injEq, List.cons_append, List.nil_append, List.cons.injEq,
    Prod.mk.injEq, true_and] at h
  exact ⟨h.1, h.2.1,
    Option.map_injective (fun _ _ => Json.string.inj) (optionalMember_injective h.2.2)⟩

theorem Entity.eq_of_toJson {name name' : String} {fields fields' : List Field}
    {label label' : Option String} (h : IsUnmistakable ⟨name, fields, label⟩)
    (h' : IsUnmistakable ⟨name', fields', label'⟩)
    (heq : toJson ⟨name, fields, label⟩ = toJson ⟨name', fields', label'⟩) :
    name = name' ∧ Field.toJsonAll fields = Field.toJsonAll fields' ∧ label = label' := by
  have hlabelled : ∀ {name : String} {fields : List Field} {text : String},
      IsUnmistakable ⟨name, fields, some text⟩ → toJson ⟨name, fields, some text⟩
        = .object [(name, .array (Field.toJsonAll fields)), ("$as", .string text)] :=
    fun h => toJson_eq_members h _ _
  rcases label with _ | text <;> rcases label' with _ | text'
  · obtain ⟨hname, hfields⟩ := single_inj.mp heq
    exact ⟨hname, Json.array.inj hfields, rfl⟩
  · exact absurd (heq.trans (hlabelled h')) (by simp [toJson])
  · exact absurd (heq.symm.trans (hlabelled h)) (by simp [toJson])
  · rw [hlabelled h, hlabelled h'] at heq
    simp only [Json.object.injEq, List.cons.injEq, Prod.mk.injEq, Json.array.injEq,
      Json.string.injEq, true_and, and_true] at heq
    exact ⟨heq.1.1, heq.1.2, congrArg some heq.2⟩

/-- A query may have the fields of a table under two of its keys only: joins are not taken for
fields. -/
theorem Query.MayHold.key_of_fields {key : String} {k : Json} {fields : List Field}
    (h : MayHold key k) (hk : k = .array (Field.toJsonAll fields)) : key ∈ ["$order", "$group"] := by
  cases h with
  | statement s => cases s <;> cases hk
  | join join =>
    obtain ⟨_, hjoin⟩ := join.toJson_eq_object
    cases hjoin.symm.trans hk
  | joins join items =>
    rcases fields with _ | ⟨f, rest⟩
    · cases hk
    · have hfirst : join.toJson = f.toJson := (List.cons.inj (Json.array.inj hk)).1
      rcases f with _ | _ | _ | _ | _ | ⟨_, _ | _⟩
      all_goals exact absurd hfirst (join.toJson_ne_single _ _)
  | filter f | prepared f =>
    obtain ⟨_, hf⟩ := f.toJson_eq_object
    cases hf.symm.trans hk
  | orders | groups => decide
  | _ => cases hk

/-- A table is not taken for a query. -/
theorem Entity.toJson_ne_query {e : Entity} (h : e.IsUnmistakable) (q : Query) :
    e.toJson ≠ q.toJson := by
  intro heq
  rcases e with ⟨name, fields, _ | label⟩
  · exact h ((Query.mayHold_of_toJson heq.symm).2.key_of_fields rfl)
  · have hmem : ("$as", Json.string label) ∈ q.members := by
      rw [toJson_eq_members h, q.toJson_eq_members] at heq
      rw [← Json.object.inj heq]
      exact List.mem_cons_of_mem _ (List.mem_singleton_self _)
    have hkey : "$as" ∈ Query.keys := Query.key_mem_keys hmem
    exact absurd hkey (by decide)

namespace Statement

variable {s : Option Statement} {entity : String}

theorem eq_none (h : toMembers s = []) : s = none := by
  cases s with
  | none => rfl
  | some => cases h

theorem eq_select {items : List Json}
    (h : toMembers s = [("$select", single entity (.array items))]) :
    ∃ fields, s = some (select entity fields) ∧ Field.toJsonAll fields = items := by
  rcases s with _ | _ | _ | _ | _
  all_goals simp_all [toMembers, key, toJson, single]

theorem eq_insert {members : List (String × Json)}
    (h : toMembers s = [("$insert", single entity (.object members))]) :
    ∃ values, s = some (insert entity values) ∧ Assignment.toMembers values = members := by
  rcases s with _ | _ | _ | _ | _
  all_goals simp_all [toMembers, key, toJson, single]

theorem eq_update {members : List (String × Json)}
    (h : toMembers s = [("$update", single entity (.object members))]) :
    ∃ values, s = some (update entity values) ∧ Assignment.toMembers values = members := by
  rcases s with _ | _ | _ | _ | _
  all_goals simp_all [toMembers, key, toJson, single]

theorem eq_delete (h : toMembers s = [("$delete", .string entity)]) : s = some (delete entity) := by
  rcases s with _ | _ | _ | _ | _
  all_goals simp_all [toMembers, key, toJson, single]

end Statement

theorem Query.isSelect_eq {q q' : Query} (h : q.toJson = q'.toJson) : q.isSelect = q'.isSelect := by
  have hkeys : ∀ q : Query, q.isSelect
      = ((Statement.toMembers q.statement).map Prod.fst == ["$select"]) := by
    intro q
    unfold isSelect selectedFields?
    rcases q.statement with _ | _ | _ | _ | _
    all_goals rfl
  rw [hkeys, hkeys, (sameParts_of_toJson_eq h).statement]

namespace JoinTarget

variable {t : JoinTarget}

theorem eq_entity {name : String} {fields : List Field} {label : Option String}
    (he : Entity.IsUnmistakable ⟨name, fields, label⟩) (h : t.Obeys .unmistakable)
    (heq : t.toJson = Entity.toJson ⟨name, fields, label⟩) :
    ∃ fields', t = entity ⟨name, fields', label⟩ ∧
      Field.toJsonAll fields' = Field.toJsonAll fields := by
  cases t with
  | entity e =>
    obtain ⟨name', fields', label'⟩ := e
    obtain ⟨rfl, hfields, rfl⟩ := Entity.eq_of_toJson h.2.1 he heq
    exact ⟨fields', rfl, hfields⟩
  | query q => exact absurd heq.symm (Entity.toJson_ne_query he q)

theorem eq_query {q : Query} (h : t.Obeys .unmistakable) (heq : t.toJson = q.toJson) :
    ∃ q', t = query q' ∧ q'.toJson = q.toJson := by
  cases t with
  | entity e =>
    obtain ⟨name, fields, label⟩ := e
    exact absurd heq (Entity.toJson_ne_query (e := ⟨name, fields, label⟩) h.2.1 q)
  | query q' => exact ⟨q', rfl, heq⟩

theorem label?_eq {t t' : JoinTarget} (h : t.Obeys .unmistakable) (h' : t'.Obeys .unmistakable)
    (heq : t.toJson = t'.toJson) : t.label? = t'.label? := by
  rcases t with ⟨name, fields, label⟩ | q
  · obtain ⟨fields', rfl, -⟩ := eq_entity h.2.1 h' heq.symm
    rfl
  · obtain ⟨q', rfl, hq⟩ := eq_query h' heq.symm
    exact (Query.sameParts_of_toJson_eq hq).label.symm

theorem isEmpty_fields_eq {t t' : JoinTarget} (h : t.Obeys .unmistakable)
    (h' : t'.Obeys .unmistakable) (heq : t.toJson = t'.toJson) :
    t.fields.isEmpty = t'.fields.isEmpty := by
  rcases t with ⟨name, fields, label⟩ | q
  · obtain ⟨fields', rfl, hfields⟩ := eq_entity h.2.1 h' heq.symm
    exact Field.isEmpty_eq hfields.symm
  · obtain ⟨q', rfl, -⟩ := eq_query h' heq.symm
    rfl

end JoinTarget

theorem Operand.isNull_eq {x x' : Operand} (h : x.Obeys .unmistakable) (h' : x'.Obeys .unmistakable)
    (heq : x.toJson = x'.toJson) : x.isNull = x'.isNull := by
  cases x with
  | value v =>
    obtain ⟨v', rfl, hv⟩ := eq_value h' heq.symm
    exact Value.isNull_eq h.2 h'.2 hv.symm
  | field f =>
    obtain ⟨f', rfl, -⟩ := eq_field h' h.2.isUnmistakable heq.symm
    rfl
  | list xs =>
    obtain ⟨xs', rfl, -⟩ := eq_list h' heq.symm
    rfl
  | query q =>
    obtain ⟨q', rfl, -⟩ := eq_query h' heq.symm
    rfl

theorem Join.all_isEmpty_fields_eq : ∀ {js js' : List Join}, AllObey .unmistakable js →
    AllObey .unmistakable js' → toJsonAll js = toJsonAll js' →
      (js.all fun j => j.target.fields.isEmpty) = js'.all fun j => j.target.fields.isEmpty
  | [], [], _, _, _ => rfl
  | ⟨_, _, _⟩ :: _, ⟨_, _, _⟩ :: _, h, h', heq => by
    obtain ⟨hfirst, hrest⟩ := List.cons.inj heq
    rw [List.all_cons, List.all_cons, all_isEmpty_fields_eq h.2 h'.2 hrest,
      JoinTarget.isEmpty_fields_eq h.1.2.1 h'.1.2.1 (eq_of_toJson hfirst).1]

theorem Order.eq_of_toJson {direction direction' : Direction} {fields fields' : List Field}
    (h : toJson ⟨direction, fields⟩ = toJson ⟨direction', fields'⟩) :
    direction = direction' ∧ Field.toJsonAll fields = Field.toJsonAll fields' := by
  have hobjects : ∀ fields : List Field, ∀ item ∈ Field.toJsonAll fields,
      ∃ members, item = .object members := by
    intro fields
    rw [Field.toJsonAll_eq_map]
    exact List.forall_mem_map.mpr fun f _ => f.toJson_eq_object
  obtain ⟨hkey, hfields⟩ := single_inj.mp h
  exact ⟨Direction.key_injective hkey, oneOrAll_inj (hobjects _) (hobjects _) hfields⟩

theorem Assignment.columns_eq : ∀ {vs vs' : List Assignment}, toMembers vs = toMembers vs' →
    vs.map column = vs'.map column
  | [], [], _ => rfl
  | [], ⟨_, _⟩ :: _, h => nomatch h
  | ⟨_, _⟩ :: _, ⟨_, _⟩ :: _, h => by
    obtain ⟨hfirst, hrest⟩ := List.cons.inj h
    rw [List.map_cons, List.map_cons, (Prod.mk.inj hfirst).1, columns_eq hrest]

theorem Assignment.isEmpty_eq {vs vs' : List Assignment} (h : toMembers vs = toMembers vs') :
    vs.isEmpty = vs'.isEmpty := by
  rw [← List.isEmpty_map (f := column), columns_eq h, List.isEmpty_map]

end QueryCompiler
