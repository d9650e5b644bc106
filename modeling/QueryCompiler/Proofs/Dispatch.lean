import QueryCompiler.Proofs.DateText
import QueryCompiler.Proofs.Outcome
import QueryCompiler.Proofs.Representable

/-!
# What documents are taken for

Reading looks at the keys of a document to tell what it is. Here is what it makes of the shapes that
writing gives: literals (`Operand.ofJson_literal`), fields (`Operand.ofJson_field`), queries
(`Operand.ofJson_query`), calls of functions (`Filter.ofField_call`, `Filter.ofCall_append`) and the
members of a query one after the other (`Query.ofMembers_append`).
-/

namespace QueryCompiler

open Json (hasKey distinctMembers insertMember single)

/-! ## Keys -/

/-- What can be found again by its key has a key of its own. -/
theorem injective_of_eq_some {α β : Type} {key : α → β} {ofKey? : β → Option α}
    (h : ∀ x, ofKey? (key x) = some x) : Function.Injective key := fun x y hxy =>
  Option.some.inj ((h x).symm.trans ((congrArg ofKey? hxy).trans (h y)))

theorem functionName?_mark {func : String} (h : func ≠ "") :
    functionName? ("$" ++ func) = some func := by
  rcases hfunc : func.toList with _ | ⟨c, cs⟩
  · exact absurd (String.toList_eq_nil_iff.mp hfunc) h
  · rw [functionName?, String.toList_append, hfunc]
    simp only [show "$".toList = ['$'] by simp, List.singleton_append]
    rw [← hfunc, String.ofList_toList]

theorem isReserved_mark (func : String) : isReserved ("$" ++ func) = true := by
  rw [isReserved, String.toList_append]
  simp

/-- Names behind the mark are equal where the keys are. -/
theorem eq_of_mark_eq {func key : String} (h : "$" ++ key = "$" ++ func) : key = func :=
  (String.append_right_inj "$").mp h

theorem Aggregate.key_eq_mark (aggregate : Aggregate) :
    ∃ name ∈ Field.otherKeys, aggregate.key = "$" ++ name := by
  cases aggregate
  · exact ⟨"count", by decide, by decide⟩
  · exact ⟨"min", by decide, by decide⟩
  · exact ⟨"max", by decide, by decide⟩
  · exact ⟨"avg", by decide, by decide⟩
  · exact ⟨"sum", by decide, by decide⟩

theorem ComparisonOp.key_eq_mark (op : ComparisonOp) :
    ∃ name ∈ Filter.otherKeys, op.key = "$" ++ name := by
  cases op
  · exact ⟨"eq", by decide, by decide⟩
  · exact ⟨"ne", by decide, by decide⟩
  · exact ⟨"gt", by decide, by decide⟩
  · exact ⟨"gte", by decide, by decide⟩
  · exact ⟨"lt", by decide, by decide⟩
  · exact ⟨"lte", by decide, by decide⟩
  · exact ⟨"in", by decide, by decide⟩
  · exact ⟨"nin", by decide, by decide⟩

theorem Aggregate.ofKey?_mark {func : String} (h : func ∉ Field.otherKeys) :
    ofKey? ("$" ++ func) = none := by
  rw [ofKey?, List.find?_eq_none]
  intro aggregate _
  obtain ⟨name, hname, hkey⟩ := aggregate.key_eq_mark
  rw [decide_eq_true_eq, hkey]
  intro heq
  exact h (eq_of_mark_eq heq ▸ hname)

theorem ComparisonOp.ofKey?_mark {func : String} (h : func ∉ Filter.otherKeys) :
    ofKey? ("$" ++ func) = none := by
  rw [ofKey?, List.find?_eq_none]
  intro op _
  obtain ⟨name, hname, hkey⟩ := op.key_eq_mark
  rw [decide_eq_true_eq, hkey]
  intro heq
  exact h (eq_of_mark_eq heq ▸ hname)

theorem ComparisonOp.ofKey?_date : ofKey? "$date" = none := by
  decide

theorem Connective.ofKey?_of_not_reserved {key : String} (h : isReserved key = false) :
    ofKey? key = none := by
  rw [ofKey?]
  split_ifs with hand hor
  · rw [hand] at h
    exact absurd h (by decide)
  · rw [hor] at h
    exact absurd h (by decide)
  · rfl

theorem ne_of_not_reserved {key other : String} (h : isReserved key = false)
    (hother : isReserved other = true) : key ≠ other := by
  rintro rfl
  rw [h] at hother
  cases hother

/-! ## Members with distinct keys -/

theorem Json.insertMember_of_not_mem {key : String} {value : Json} :
    ∀ {members : List (String × Json)}, key ∉ members.map Prod.fst →
      insertMember key value members = members ++ [(key, value)]
  | [], _ => rfl
  | (k, v) :: rest, h => by
    rw [List.map_cons, List.mem_cons, not_or] at h
    rw [insertMember, if_neg (Ne.symm h.1), insertMember_of_not_mem h.2, List.cons_append]

theorem Json.foldl_insertMember (rest : List (String × Json)) : ∀ done : List (String × Json),
    ((done ++ rest).map Prod.fst).Nodup →
      rest.foldl (fun done (key, value) => insertMember key value done) done = done ++ rest := by
  induction rest with
  | nil => simp
  | cons member rest ih =>
    intro done hdone
    obtain ⟨key, value⟩ := member
    have hnew : key ∉ done.map Prod.fst := by
      rw [List.map_append, List.map_cons] at hdone
      exact fun hmem => (List.nodup_append.mp hdone).2.2 _ hmem _ List.mem_cons_self rfl
    have hstep := ih (done ++ [(key, value)])
    rw [List.append_assoc, List.singleton_append] at hstep
    rw [List.foldl_cons]
    simp only [insertMember_of_not_mem hnew]
    exact hstep hdone

theorem Json.distinctMembers_eq_self {members : List (String × Json)}
    (h : (members.map Prod.fst).Nodup) : distinctMembers members = members :=
  foldl_insertMember members [] h

theorem Json.hasKey_eq_false {key : String} {members : List (String × Json)} :
    hasKey key members = false ↔ key ∉ members.map Prod.fst := by
  simp only [hasKey, List.any_eq_false, beq_iff_eq, List.mem_map, not_exists, not_and]

theorem Json.hasKey_eq_true {key : String} {members : List (String × Json)} :
    hasKey key members = true ↔ key ∈ members.map Prod.fst := by
  simp only [hasKey, List.any_eq_true, beq_iff_eq, List.mem_map]

/-! ## Literals -/

theorem Value.ofJson_toJson {v : Value} (h : v.IsFinite) : ofJson v.toJson = .ok v.truncated := by
  rcases v with _ | _ | n | x | _ | t
  · rfl
  · rfl
  · rw [toJson, ofJson, int64?_toInt]
    rfl
  · rw [toJson, if_pos (show x.isFinite = true from h)]
    rfl
  · rfl
  · rw [toJson, single, ofJson, Json.text]
    simp only [bind, Except.bind, DateTime.ofText?_documentText]
    rfl

theorem Operand.ofJson_literal {v : Value} (h : v.IsFinite) :
    ofJson v.toJson = .ok (.value v.truncated) := by
  have hv := Value.ofJson_toJson h
  rcases v with _ | _ | n | x | _ | t
  · rfl
  · rfl
  · rw [Value.toJson] at hv ⊢
    rw [ofJson, hv]
    · rfl
    all_goals
      intro _ h
      cases h
  · rw [Value.toJson, if_pos (show x.isFinite = true from h)] at hv ⊢
    rw [ofJson, hv]
    · rfl
    all_goals
      intro _ h
      cases h
  · rfl
  · rw [Value.toJson, single] at hv ⊢
    rw [ofJson, ofObject, if_pos (by simp [hasKey]), hv]
    rfl

theorem Test.ofLast_literal {v : Value} (h : v.IsFinite) :
    ofLast v.toJson = .ok [⟨.eq, .value v.truncated⟩] := by
  have hv := Value.ofJson_toJson h
  rcases v with _ | _ | n | x | _ | t
  · rfl
  · rfl
  · rw [Value.toJson] at hv ⊢
    rw [ofLast, hv]
    · rfl
    all_goals
      intro _ h
      cases h
  · rw [Value.toJson, if_pos (show x.isFinite = true from h)] at hv ⊢
    rw [ofLast, hv]
    · rfl
    all_goals
      intro _ h
      cases h
  · rfl
  · rw [Value.toJson, single] at hv ⊢
    rw [ofLast, if_neg (by simp [Json.namesTests, ComparisonOp.ofKey?_date]), Operand.ofObject,
      if_pos (by simp [hasKey]), hv]
    rfl

/-! ## Fields and queries as operands -/

theorem Json.hasKey_single {key other : String} {value : Json} :
    hasKey key [(other, value)] = (other == key) := by
  rw [hasKey, List.any_cons, List.any_nil, Bool.or_false]

theorem Aggregate.isReserved_key (aggregate : Aggregate) : isReserved aggregate.key = true := by
  obtain ⟨name, -, hkey⟩ := aggregate.key_eq_mark
  rw [hkey, isReserved_mark]

theorem Field.toJson_eq_single {f : Field} (h : f.IsReadable) :
    ∃ key value, f.toJson = single key value ∧
      (key = "$name" ∨ key = "$value" ∨
        isReserved key = false ∧ Json.definesField [(key, value)] = true) := by
  rcases f with text | ⟨entity, text⟩ | ⟨label, expression⟩ | ⟨label, aggregate, text⟩ |
    ⟨label, func, args⟩ | ⟨v, _ | label⟩
  · exact ⟨_, _, rfl, .inl rfl⟩
  · exact ⟨_, _, rfl, .inl rfl⟩
  · exact ⟨_, _, rfl, .inr (.inr ⟨h, by rw [Json.definesField, h]; rfl⟩)⟩
  · refine ⟨_, _, rfl, .inr (.inr ⟨h, ?_⟩)⟩
    rw [single, Json.definesField, h, aggregate.isReserved_key]
    rfl
  · refine ⟨_, _, rfl, .inr (.inr ⟨h.1, ?_⟩)⟩
    rw [single, Json.definesField, h.1, isReserved_mark]
    rfl
  · exact ⟨_, _, rfl, .inr (.inl rfl)⟩
  · have hlabel : isReserved label = false := h label rfl
    refine ⟨_, _, rfl, .inr (.inr ⟨hlabel, ?_⟩)⟩
    rw [single, Json.definesField, hlabel]
    decide

theorem Operand.ofObject_field {key : String} {value : Json}
    {field : Unit → Except QueryError Field} {query : Unit → Except QueryError Query}
    (h : key = "$name" ∨ key = "$value" ∨
      isReserved key = false ∧ Json.definesField [(key, value)] = true) :
    ofObject [(key, value)] field query = .field <$> field () := by
  rcases h with rfl | rfl | ⟨hkey, hdefines⟩
  · simp only [ofObject, Json.hasKey_single]
    rfl
  · simp only [ofObject, Json.hasKey_single]
    rfl
  · have hne : ∀ other, isReserved other = true → (key == other) = false := fun other hother =>
      beq_false_of_ne (ne_of_not_reserved hkey hother)
    simp only [ofObject, Json.hasKey_single, statementKeys, List.any_cons, List.any_nil, hdefines,
      hne "$date" (by decide), hne "$name" (by decide), hne "$value" (by decide),
      hne "$select" (by decide), hne "$insert" (by decide), hne "$update" (by decide),
      hne "$delete" (by decide)]
    rfl

/-- The document of a field is read as a field wherever an operand is expected. -/
theorem Operand.ofJson_field {f : Field} (h : f.IsReadable) :
    ofJson f.toJson = .field <$> Field.ofJson f.toJson := by
  obtain ⟨key, value, hjson, hkey⟩ := Field.toJson_eq_single h
  rw [hjson, single, ofJson, ofObject_field hkey]
  rfl

/-- A name is cut at its first dot, if there is something on both sides. -/
theorem Field.select_cases (text : String) : select text = .name text ∨
    ∃ entity column, select text = .qualified entity column ∧ entity ++ "." ++ column = text := by
  rw [select]
  split
  · rename_i entity column hsplit
    split_ifs
    · exact .inl rfl
    · refine .inr ⟨_, _, rfl, ?_⟩
      apply String.toList_inj.mp
      simp [(Text.splitFirst?_append hsplit).1]
  · exact .inl rfl

theorem Field.ofJson_name (text : String) :
    ofJson (single "$name" (.string text)) = .ok (.select text) := rfl

theorem Field.ofJson_constant (value : Json) :
    ofJson (single "$value" value) = (.constant · none) <$> Value.ofJson value := rfl

section Labelled

variable {label : String} (h : isReserved label = false)

include h

theorem Field.ofJson_labelled (expression : String) :
    ofJson (single label (.string expression)) = .ok (.labelled label expression) := by
  have hname := ne_of_not_reserved h (show isReserved "$name" = true by decide)
  have hvalue := ne_of_not_reserved h (show isReserved "$value" = true by decide)
  rw [single, ofJson, ofMembers, if_neg hname, if_neg hvalue, h]
  rfl

theorem Field.ofJson_aggregate (aggregate : Aggregate) (text : String) :
    ofJson (single label (single aggregate.key (.string text)))
      = .ok (.aggregate label aggregate text) := by
  have hname := ne_of_not_reserved h (show isReserved "$name" = true by decide)
  have hvalue := ne_of_not_reserved h (show isReserved "$value" = true by decide)
  have hconstant : aggregate.key ≠ "$value" := by cases aggregate <;> decide
  rw [single, single, ofJson, ofMembers, if_neg hname, if_neg hvalue, h]
  simp only [if_neg hconstant, Aggregate.ofKey?_key]
  rfl

theorem Field.ofJson_function {func : String} (hne : func ≠ "") (hfunc : func ∉ Field.otherKeys)
    (items : List Json) :
    ofJson (single label (single ("$" ++ func) (.array items)))
      = .function label func <$> Operand.ofJsonAll items := by
  have hname := ne_of_not_reserved h (show isReserved "$name" = true by decide)
  have hvalue := ne_of_not_reserved h (show isReserved "$value" = true by decide)
  have hconstant : "$" ++ func ≠ "$value" := fun heq =>
    hfunc (eq_of_mark_eq (show "$" ++ "value" = "$" ++ func from heq.symm) ▸ by decide)
  rw [single, single, ofJson, ofMembers, if_neg hname, if_neg hvalue, h]
  simp only [if_neg hconstant, Aggregate.ofKey?_mark hfunc, functionName?_mark hne]
  rfl

theorem Field.ofJson_namedConstant (value : Json) :
    ofJson (single label (single "$value" value))
      = (.constant · (some label)) <$> Value.ofJson value := by
  have hname := ne_of_not_reserved h (show isReserved "$name" = true by decide)
  have hvalue := ne_of_not_reserved h (show isReserved "$value" = true by decide)
  rw [single, single, ofJson, ofMembers, if_neg hname, if_neg hvalue, h]
  rfl

end Labelled

/-! ## Members of queries -/

/-- The keys of a query's document. -/
def Query.keys : List String :=
  statementKeys ++ ["$expand", "$where", "$prepared", "$order", "$group", "$distinct", "$fixed",
    "$skip", "$take", "$alias"]

/-- The members of a query's document. -/
def Query.members (q : Query) : List (String × Json) :=
  Statement.toMembers q.statement ++ itemsMember "$expand" (Join.toJsonAll q.joins) ++
    Filter.toMembers "$where" q.filter ++ Filter.toMembers "$prepared" q.prepared ++
    listMember "$order" (Order.toJsonAll q.orders) ++
    listMember "$group" (Field.toJsonAll q.groups) ++
    flagMember "$distinct" q.distinct ++ flagMember "$fixed" q.fixed ++
    countMember "$skip" q.skip ++ countMember "$take" q.take ++
    optionalMember "$alias" (q.label.map .string)

theorem Query.toJson_eq_members (q : Query) : q.toJson = .object q.members := by
  rcases q with ⟨_, _, _, _, _, _, _, _, _, _, _, _⟩
  rw [toJson, members]

theorem Statement.key_mem_statementKeys (s : Statement) : s.key ∈ statementKeys := by
  cases s <;> simp [key, statementKeys]

theorem Statement.key_mem_of_mem_toMembers {s : Option Statement} {m : String × Json}
    (h : m ∈ Statement.toMembers s) : m.1 ∈ statementKeys := by
  rcases s with _ | s
  · cases h
  · rw [Statement.toMembers, List.mem_singleton] at h
    rw [h]
    exact s.key_mem_statementKeys

section OneKey

variable {key : String} {m : String × Json}

theorem key_eq_of_mem_optionalMember {value : Option Json} (h : m ∈ optionalMember key value) :
    m.1 = key := by
  rcases value with _ | value
  · cases h
  · rw [List.mem_singleton.mp h]

theorem key_eq_of_mem_listMember {items : List Json} (h : m ∈ listMember key items) :
    m.1 = key := by
  rw [listMember] at h
  split_ifs at h
  · cases h
  · rw [List.mem_singleton.mp h]

theorem key_eq_of_mem_itemsMember {items : List Json} (h : m ∈ itemsMember key items) :
    m.1 = key := by
  rw [itemsMember] at h
  split_ifs at h
  · cases h
  · rw [List.mem_singleton.mp h]

theorem key_eq_of_mem_flagMember {flag : Bool} (h : m ∈ flagMember key flag) : m.1 = key := by
  rw [flagMember] at h
  split_ifs at h
  · rw [List.mem_singleton.mp h]
  · cases h

theorem Filter.key_eq_of_mem_toMembers {f : Option Filter} (h : m ∈ Filter.toMembers key f) :
    m.1 = key := by
  rcases f with _ | f
  · cases h
  · rw [Filter.toMembers, List.mem_singleton] at h
    rw [h]

end OneKey

theorem Query.key_mem_keys {q : Query} {m : String × Json} (h : m ∈ q.members) :
    m.1 ∈ Query.keys := by
  simp only [members, List.mem_append] at h
  rcases h with ((((((((((h | h) | h) | h) | h) | h) | h) | h) | h) | h) | h)
  · exact List.mem_append_left _ (Statement.key_mem_of_mem_toMembers h)
  · rw [key_eq_of_mem_itemsMember h]
    decide
  · rw [Filter.key_eq_of_mem_toMembers h]
    decide
  · rw [Filter.key_eq_of_mem_toMembers h]
    decide
  · rw [key_eq_of_mem_listMember h]
    decide
  · rw [key_eq_of_mem_listMember h]
    decide
  · rw [key_eq_of_mem_flagMember h]
    decide
  · rw [key_eq_of_mem_flagMember h]
    decide
  · rw [key_eq_of_mem_optionalMember h]
    decide
  · rw [key_eq_of_mem_optionalMember h]
    decide
  · rw [key_eq_of_mem_optionalMember h]
    decide

theorem Query.hasKey_members_eq_false {q : Query} {key : String} (h : key ∉ Query.keys) :
    hasKey key q.members = false := by
  rw [Json.hasKey_eq_false, List.mem_map]
  rintro ⟨m, hm, rfl⟩
  exact h (key_mem_keys hm)

theorem Query.hasKey_statement {q : Query} {s : Statement} (h : q.statement = some s) :
    hasKey s.key q.members = true := by
  rw [Json.hasKey_eq_true, members, h]
  simp [Statement.toMembers]

/-- The document of a query with a statement is read as a query wherever an operand is expected. -/
theorem Operand.ofJson_query {q : Query} (h : q.statement.isSome = true) :
    ofJson q.toJson = .query <$> Query.ofJson q.toJson := by
  obtain ⟨s, hs⟩ := Option.isSome_iff_exists.mp h
  have hany : (statementKeys.any fun key => hasKey key q.members) = true :=
    List.any_eq_true.mpr ⟨s.key, s.key_mem_statementKeys, Query.hasKey_statement hs⟩
  rw [q.toJson_eq_members, ofJson, ofObject, Query.hasKey_members_eq_false (by decide),
    Query.hasKey_members_eq_false (by decide), Query.hasKey_members_eq_false (by decide), hany]
  rfl

/-- The document of a query that selects is read as a query where something is joined. -/
theorem JoinTarget.ofJson_query {q : Query} (h : q.isSelect = true) :
    ofJson q.toJson = .query <$> Query.ofJson q.toJson := by
  have hselect : hasKey "$select" q.members = true := by
    rw [Query.isSelect, Query.selectedFields?] at h
    split at h
    · rename_i hs
      exact Query.hasKey_statement hs
    · cases h
  rw [q.toJson_eq_members, ofJson, if_pos hselect]
  rfl

/-- The query with what one member says added to it. -/
def Query.ofMember (q : Query) (m : String × Json) : Except QueryError Query :=
  q.ofMembers [m]

section OneMember

variable (q : Query)

theorem Query.ofMember_select (value : Json) :
    q.ofMember ("$select", value) = q.putStatement "$select" fun _ =>
      (fun entity => .select entity.name entity.fields) <$> Entity.ofJson value :=
  bind_pure _

theorem Query.ofMember_insert (value : Json) :
    q.ofMember ("$insert", value) = q.putStatement "$insert" fun _ =>
      (fun table => .insert table.1 table.2) <$> Assignment.ofJson "$insert" value :=
  bind_pure _

theorem Query.ofMember_update (value : Json) :
    q.ofMember ("$update", value) = q.putStatement "$update" fun _ =>
      (fun table => .update table.1 table.2) <$> Assignment.ofJson "$update" value :=
  bind_pure _

theorem Query.ofMember_delete (value : Json) :
    q.ofMember ("$delete", value)
      = q.putStatement "$delete" fun _ => .delete <$> value.text "$delete" :=
  bind_pure _

theorem Query.ofMember_expand (items : List Json) :
    q.ofMember ("$expand", .array items)
      = (fun joins => { q with joins }) <$> Join.ofJsonAll items :=
  bind_pure _

theorem Query.ofMember_expand_object (members : List (String × Json)) :
    q.ofMember ("$expand", .object members)
      = (fun join => { q with joins := [join] }) <$> Join.ofJson (.object members) :=
  bind_pure _

theorem Query.ofMember_where (members : List (String × Json)) :
    q.ofMember ("$where", .object members)
      = (fun filter => { q with filter := some filter }) <$> Filter.ofJson (.object members) :=
  bind_pure _

theorem Query.ofMember_prepared (members : List (String × Json)) :
    q.ofMember ("$prepared", .object members)
      = (fun filter => { q with prepared := some filter }) <$> Filter.ofJson (.object members) :=
  bind_pure _

theorem Query.ofMember_order (items : List Json) :
    q.ofMember ("$order", .array items)
      = (fun orders => { q with orders }) <$> Order.ofJsonAll items :=
  bind_pure _

theorem Query.ofMember_group (items : List Json) :
    q.ofMember ("$group", .array items)
      = (fun groups => { q with groups }) <$> Field.ofJsonAll items :=
  bind_pure _

theorem Query.ofMember_skip (value : Json) :
    q.ofMember ("$skip", value) = (fun skip => { q with skip }) <$> value.count? "$skip" :=
  bind_pure _

theorem Query.ofMember_take (value : Json) :
    q.ofMember ("$take", value) = (fun take => { q with take }) <$> value.count? "$take" :=
  bind_pure _

theorem Query.ofMembers_cons (m : String × Json) (rest : List (String × Json)) :
    q.ofMembers (m :: rest) = q.ofMember m >>= fun q => q.ofMembers rest := by
  rcases m with ⟨key, value⟩
  rw [ofMember]
  conv_lhs => rw [Query.ofMembers.eq_def]
  conv_rhs => enter [1]; rw [Query.ofMembers.eq_def]
  rw [bind_assoc]
  rfl

end OneMember

theorem Query.ofMembers_append (q : Query) : ∀ (ms ns : List (String × Json)),
    q.ofMembers (ms ++ ns) = q.ofMembers ms >>= fun q => q.ofMembers ns
  | [], ns => rfl
  | m :: ms, ns => by
    rw [List.cons_append, ofMembers_cons, ofMembers_cons]
    rcases q.ofMember m with e | q
    · rfl
    · exact ofMembers_append q ms ns

/-! ## Filters -/

theorem Filter.ofJson_logical (connective : Connective) (items : List Json) :
    ofJson (single connective.key (.array items))
      = .logical connective <$> Filter.ofJsonAll items := by
  rw [single, ofJson, ofMembers, Connective.ofKey?_key]
  rfl

theorem Test.ofMembers_key (op : ComparisonOp) (value : Json) (rest : List (String × Json)) :
    ofMembers ((op.key, value) :: rest) = do
      let operand ← Operand.ofJson value
      let tests ← ofMembers rest
      return ⟨op, operand⟩ :: tests := by
  rw [ofMembers, ComparisonOp.ofKey?_key]

section Condition

variable {field : String} (h : isReserved field = false)

include h

theorem Filter.ofJson_compare (op : ComparisonOp) (value : Json) :
    ofJson (single field (.object [(op.key, value)]))
      = (fun operand => .compare field ⟨op, operand⟩) <$> Operand.ofJson value := by
  have hnames : Json.namesTests [(op.key, value)] = true := by
    rw [Json.namesTests, List.all_cons, ComparisonOp.ofKey?_key]
    rfl
  rw [single, ofJson, ofMembers, Connective.ofKey?_of_not_reserved h]
  simp only [h, Bool.false_eq_true, if_false]
  rw [ofField, if_pos hnames, Test.ofMembers_key, Test.ofMembers]
  · rcases Operand.ofJson value with e | x
    · rfl
    · rfl

theorem Filter.ofJson_call {func : String} (hne : func ≠ "") (hfunc : func ∉ Filter.otherKeys)
    (items : List Json) :
    ofJson (single field (single ("$" ++ func) (.array items)))
      = (fun call => .function field func call.1 call.2) <$> Filter.ofCall items := by
  have hnames : Json.namesTests [("$" ++ func, .array items)] = false := by
    rw [Json.namesTests, List.all_cons, ComparisonOp.ofKey?_mark hfunc]
    rfl
  have hother : ∀ name ∈ Filter.otherKeys, "$" ++ func ≠ "$" ++ name := fun name hname heq =>
    hfunc (eq_of_mark_eq heq ▸ hname)
  have hoperand : Json.namesOperand [("$" ++ func, .array items)] = false := by
    simp only [Json.namesOperand, statementKeys, List.contains_eq_mem, Bool.or_eq_false_iff,
      decide_eq_false_iff_not, List.mem_cons, List.not_mem_nil, or_false, not_or]
    exact ⟨⟨hother "name" (by decide), hother "date" (by decide), hother "value" (by decide)⟩,
      hother "select" (by decide), hother "insert" (by decide), hother "update" (by decide),
      hother "delete" (by decide)⟩
  rw [single, single, ofJson, ofMembers, Connective.ofKey?_of_not_reserved h]
  simp only [h, Bool.false_eq_true, if_false]
  rw [ofField, hnames, hoperand]
  simp only [Bool.false_eq_true, if_false, functionName?_mark hne]
  rfl

end Condition

/-- All items but the last are arguments. -/
theorem Filter.ofCall_append (last : Json) : ∀ items : List Json,
    ofCall (items ++ [last])
      = (Operand.ofJsonAll items >>= fun args => (args, ·) <$> Test.ofLast last)
  | [] => by
    rw [List.nil_append, ofCall]
    rfl
  | item :: items => by
    have hne : items ++ [last] = [] → False := by simp
    rw [List.cons_append, ofCall, ofCall_append last items, Operand.ofJsonAll]
    · rcases Operand.ofJson item with e | x
      · rfl
      · rcases Operand.ofJsonAll items with e | xs
        · rfl
        · rcases Test.ofLast last with e | tests
          · rfl
          · rfl
    · exact hne

/-! ## Tables -/

theorem Entity.toJson_eq_members {name : String} (h : name ≠ "$as") (fields : List Field)
    (label : Option String) :
    toJson ⟨name, fields, label⟩ = .object ((name, .array (Field.toJsonAll fields)) ::
      optionalMember "$as" (label.map .string)) := by
  rcases label with _ | label
  · rfl
  · simp only [toJson, insertMember, if_neg h]
    rfl

theorem Entity.ofMembers_label (table : Option (String × List Field)) (label : Option String) :
    ofMembers { table } (optionalMember "$as" (label.map .string))
      = { table, label : EntityParts }.entity := by
  rcases label with _ | label
  · rfl
  · rfl

theorem Entity.ofJson_plain {name : String} (h : isReserved name = false) (fields : List Field)
    (label : Option String) :
    ofJson (toJson ⟨name, fields, label⟩)
      = (⟨name, ·, label⟩) <$> Field.ofJsonAll (Field.toJsonAll fields) := by
  have hname := ne_of_not_reserved h (show isReserved "$as" = true by decide)
  rw [toJson_eq_members hname, ofJson, ofMembers, if_neg hname, h]
  simp only [ofMembers_label]
  rfl

/-- A table whose name is reserved is not read. -/
theorem Entity.ofJson_reserved {name : String} (h : isReserved name = true) (fields : List Field)
    (label : Option String) : ∃ e, ofJson (toJson ⟨name, fields, label⟩) = .error e := by
  by_cases hname : name = "$as"
  · subst hname
    rcases label with _ | label
    · exact ⟨_, rfl⟩
    · exact ⟨_, rfl⟩
  · rw [toJson_eq_members hname, ofJson, ofMembers, if_neg hname, if_pos h]
    exact ⟨_, rfl⟩

theorem JoinTarget.ofJson_entity {name : String} (h : name ≠ "$select") (fields : List Field)
    (label : Option String) :
    ofJson (Entity.toJson ⟨name, fields, label⟩)
      = .entity <$> Entity.ofJson (Entity.toJson ⟨name, fields, label⟩) := by
  by_cases hname : name = "$as"
  · subst hname
    rcases label with _ | label
    · rfl
    · rfl
  · have hkey : hasKey "$select" ((name, .array (Field.toJsonAll fields)) ::
        optionalMember "$as" (label.map .string)) = false := by
      rw [hasKey, List.any_cons, beq_false_of_ne h]
      rcases label with _ | label
      · rfl
      · rfl
    rw [Entity.toJson_eq_members hname, ofJson, hkey]
    rfl

/-- A table whose name is that of a key for statements is taken for a query without a table. -/
theorem JoinTarget.ofJson_select (fields : List Field) (label : Option String) :
    ∃ e, ofJson (Entity.toJson ⟨"$select", fields, label⟩) = .error e := by
  rcases label with _ | label
  · exact ⟨_, rfl⟩
  · exact ⟨_, rfl⟩

/-! ## Joins and orderings -/

theorem Filter.toJson_eq_object : ∀ f : Filter, ∃ members, f.toJson = .object members
  | .logical _ _ => ⟨_, rfl⟩
  | .compare _ _ => ⟨_, rfl⟩
  | .function _ _ _ _ => ⟨_, rfl⟩

theorem Field.toJson_eq_object : ∀ f : Field, ∃ members, f.toJson = .object members
  | .name _ => ⟨_, rfl⟩
  | .qualified _ _ => ⟨_, rfl⟩
  | .labelled _ _ => ⟨_, rfl⟩
  | .aggregate _ _ _ => ⟨_, rfl⟩
  | .function _ _ _ => ⟨_, rfl⟩
  | .constant _ none => ⟨_, rfl⟩
  | .constant _ (some _) => ⟨_, rfl⟩

theorem Join.toJson_eq_object (join : Join) : ∃ members, join.toJson = .object members := by
  rcases join with ⟨_, _, _⟩
  exact ⟨_, rfl⟩

theorem JoinCondition.ofJson_filter (f : Filter) :
    ofJson f.toJson = .filter <$> Filter.ofJson f.toJson := by
  obtain ⟨members, hf⟩ := f.toJson_eq_object
  rw [hf, ofJson]
  rfl

theorem Join.ofJson_members (target : JoinTarget) (condition : JoinCondition)
    (label : Option String) :
    ofJson (toJson ⟨target, condition, label⟩)
      = (JoinTarget.ofJson target.toJson >>= fun target =>
          (⟨target, ·, label⟩) <$> JoinCondition.ofJson condition.toJson) := by
  rcases label with _ | label
  · show (JoinParts.mk (some (JoinTarget.ofJson target.toJson))
      (some (JoinCondition.ofJson condition.toJson)) none).join = _
    rcases JoinTarget.ofJson target.toJson with e | target
    · rfl
    · rfl
  · show (JoinParts.mk (some (JoinTarget.ofJson target.toJson))
      (some (JoinCondition.ofJson condition.toJson)) (some (.ok label))).join = _
    rcases JoinTarget.ofJson target.toJson with e | target
    · rfl
    · rfl

theorem Order.ofJson_fields (direction : Direction) (fields : List Field) :
    ofJson (toJson ⟨direction, fields⟩)
      = (⟨direction, ·⟩) <$> Field.ofJsonAll (Field.toJsonAll fields) := by
  rw [toJson, Json.single]
  rcases fields with _ | ⟨f, _ | ⟨g, rest⟩⟩
  · rw [Field.toJsonAll, oneOrAll, ofJson, Direction.ofKey?_key]
    · rfl
    · intro _ h
      cases h
  · obtain ⟨members, hf⟩ := f.toJson_eq_object
    rw [Field.toJsonAll, Field.toJsonAll, oneOrAll, hf, ofJson, Direction.ofKey?_key,
      Field.ofJsonAll]
    show (Field.ofJson (.object members) >>= fun field => .ok (Order.mk direction [field])) = _
    rcases Field.ofJson (.object members) with e | f
    · rfl
    · rfl
  · rw [Field.toJsonAll, Field.toJsonAll, oneOrAll, ofJson, Direction.ofKey?_key]
    · rfl
    · intro _ h
      cases h

end QueryCompiler
