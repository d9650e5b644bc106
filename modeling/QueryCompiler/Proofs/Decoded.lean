import QueryCompiler.Proofs.Dispatch
import QueryCompiler.Proofs.WholeFloat

/-!
# What reading gives

Whatever document is read, the query that it gives obeys `Law.decoded` (`Query.obeys_ofJson`), with
floats that are numbers, names that are cut where they would be cut again, and so on. There is one
theorem for each function that reads, by recursion on the document.
-/

namespace QueryCompiler

open Json (hasKey)

mutual

/-- The value is one that can be written: its numbers are finite floats and integers of 64 bits,
with a sign or without one, and no key occurs twice in an object. -/
def Json.WellFormed : Json → Prop
  | .null => True
  | .bool _ => True
  | .integer n => -2 ^ 63 ≤ n ∧ n < 2 ^ 64
  | .float x => x.isFinite = true
  | .string _ => True
  | .array items => Json.AllWellFormed items
  | .object members => (members.map Prod.fst).Nodup ∧ Json.MembersWellFormed members

/-- All values are such that they can be written. -/
def Json.AllWellFormed : List Json → Prop
  | [] => True
  | item :: rest => item.WellFormed ∧ Json.AllWellFormed rest

/-- The values of all members are such that they can be written. -/
def Json.MembersWellFormed : List (String × Json) → Prop
  | [] => True
  | (_, value) :: rest => value.WellFormed ∧ Json.MembersWellFormed rest

end

section Mem

variable {n : ℕ}

theorem Json.wellFormed_of_mem : ∀ {items : List Json}, sizeOf items ≤ n →
    Json.AllWellFormed items → ∀ j ∈ items, sizeOf j < n ∧ j.WellFormed
  | item :: rest, hn, ⟨hitem, hrest⟩, j, h => by
    rw [List.cons.sizeOf_spec] at hn
    rcases List.mem_cons.mp h with rfl | h
    · exact ⟨by omega, hitem⟩
    · exact wellFormed_of_mem (by omega) hrest j h

theorem Json.wellFormed_of_mem_members : ∀ {members : List (String × Json)}, sizeOf members ≤ n →
    Json.MembersWellFormed members → ∀ m ∈ members, sizeOf m.2 < n ∧ m.2.WellFormed
  | (key, value) :: rest, hn, ⟨hvalue, hrest⟩, m, h => by
    rw [List.cons.sizeOf_spec, Prod.mk.sizeOf_spec] at hn
    rcases List.mem_cons.mp h with rfl | h
    · exact ⟨show sizeOf value < n by omega, hvalue⟩
    · exact wellFormed_of_mem_members (by omega) hrest m h

end Mem

/-! ## Names and keys -/

theorem Statement.obeys_select : ∀ {e : Entity}, e.Obeys .decoded →
    Statement.Obeys .decoded (.select e.name e.fields)
  | ⟨_, _, _⟩, he => ⟨trivial, he.2⟩

theorem Field.obeys_select (text : String) : (Field.select text).Obeys .decoded := by
  rcases select_cases text with hname | ⟨entity, column, hqualified, htext⟩
  · rw [hname]
    exact hname
  · rw [hqualified]
    show Field.select (entity ++ "." ++ column) = _
    rw [htext]
    exact hqualified

theorem functionName?_eq_some {key name : String} (h : functionName? key = some name) :
    key = "$" ++ name ∧ name ≠ "" := by
  unfold functionName? at h
  split at h
  · rename_i c cs hkey
    obtain rfl := Option.some.inj h
    refine ⟨?_, ?_⟩
    · apply String.toList_inj.mp
      simp [hkey]
    · intro hempty
      have := congrArg String.toList hempty
      simp at this
  · cases h

theorem Field.not_mem_otherKeys {func : String} (hvalue : "$" ++ func ≠ "$value")
    (haggregate : Aggregate.ofKey? ("$" ++ func) = none) : func ∉ Field.otherKeys := by
  intro h
  simp only [otherKeys, List.mem_cons, List.not_mem_nil, or_false] at h
  rcases h with rfl | rfl | rfl | rfl | rfl | rfl
  · exact hvalue (by decide)
  all_goals revert haggregate; decide

theorem Filter.not_mem_otherKeys {func : String} {value : Json}
    (hnames : Json.namesTests [("$" ++ func, value)] = false)
    (hoperand : Json.namesOperand [("$" ++ func, value)] = false) : func ∉ Filter.otherKeys := by
  have hcomparison : (ComparisonOp.ofKey? ("$" ++ func)).isSome = false := by
    rwa [Json.namesTests, List.all_cons, List.all_nil, Bool.and_true] at hnames
  rw [Json.namesOperand] at hoperand
  intro h
  simp only [otherKeys, List.mem_cons, List.not_mem_nil, or_false] at h
  rcases h with rfl | rfl | rfl | rfl | rfl | rfl | rfl | rfl | rfl | rfl | rfl | rfl | rfl | rfl |
    rfl
  all_goals first | exact absurd hcomparison (by decide) | exact absurd hoperand (by decide)

theorem ComparisonOp.key_of_ofKey? {key : String} {op : ComparisonOp} (h : ofKey? key = some op) :
    op.key = key := by
  simpa using List.find?_some h

/-! ## Literals -/

theorem Value.isFinite_ofJson {j : Json} (h : j.WellFormed) :
    Ensures (Value.ofJson j) Value.IsFinite := by
  unfold ofJson
  split
  · exact Ensures.ok trivial
  · exact Ensures.ok trivial
  · rename_i n
    refine Ensures.ok ?_
    rw [int64?]
    split_ifs with hword
    · trivial
    · have hmin : Int64.minValue.toInt = -2 ^ 63 := by decide
      have hmax : Int64.maxValue.toInt = 2 ^ 63 - 1 := by decide
      rw [hmin, hmax] at hword
      have hn : -2 ^ 63 ≤ n ∧ n < 2 ^ 64 := h
      exact isFinite_floatOfInt (by omega) hn.2
  · exact Ensures.ok h
  · exact Ensures.ok trivial
  · refine (Ensures.trivial _).bind fun text _ => ?_
    split
    · exact Ensures.ok trivial
    · exact Ensures.error _
  · exact Ensures.error _

/-! ## Statements -/

namespace Query

variable {q : Query} {key : String}

/-- Only a member under a statement's key changes the statement. -/
theorem statement_ofMember (h : key ∉ statementKeys) (value : Json) :
    Ensures (q.ofMember (key, value)) fun q' => q'.statement = q.statement := by
  simp only [statementKeys, List.mem_cons, List.not_mem_nil, or_false, not_or] at h
  unfold ofMember ofMembers
  refine Ensures.bind ?_ fun q' hq' => Ensures.ok hq'
  rw [if_neg h.1, if_neg h.2.1, if_neg h.2.2.1, if_neg h.2.2.2]
  repeat' refine Ensures.ite (fun _ => ?_) fun _ => ?_
  · rcases value
    all_goals exact (Ensures.trivial _).map fun _ _ => rfl
  · rcases value
    · exact Ensures.ok rfl
    all_goals exact (Ensures.trivial _).map fun _ _ => rfl
  · rcases value
    · exact Ensures.ok rfl
    all_goals exact (Ensures.trivial _).map fun _ _ => rfl
  · rcases value with _ | _ | _ | _ | _ | items | _
    case array => exact (Ensures.trivial _).map fun _ _ => rfl
    all_goals exact Ensures.error _
  · rcases value
    all_goals exact (Ensures.trivial _).map fun _ _ => rfl
  · exact (Ensures.trivial _).map fun _ _ => rfl
  · exact (Ensures.trivial _).map fun _ _ => rfl
  · exact (Ensures.trivial _).map fun _ _ => rfl
  · exact (Ensures.trivial _).map fun _ _ => rfl
  · exact (Ensures.trivial _).map fun _ _ => rfl
  · exact Ensures.error _
  · exact Ensures.error _

theorem statement_putStatement {read : Unit → Except QueryError Statement}
    (hread : Ensures (read ()) fun s => s.key = key) :
    Ensures (q.putStatement key read) fun q' =>
      q.statement = none ∧ ∃ s, q'.statement = some s ∧ s.key = key := by
  rw [putStatement]
  split
  · exact Ensures.error _
  · rename_i hnone
    exact hread.bind fun s hs => Ensures.ok ⟨hnone, s, rfl, hs⟩

/-- A member under a statement's key puts that statement where there was none. -/
theorem statement_ofMember_of_mem (h : key ∈ statementKeys) (value : Json) :
    Ensures (q.ofMember (key, value)) fun q' =>
      q.statement = none ∧ ∃ s, q'.statement = some s ∧ s.key = key := by
  simp only [statementKeys, List.mem_cons, List.not_mem_nil, or_false] at h
  rcases h with rfl | rfl | rfl | rfl
  · rw [ofMember_select]
    exact statement_putStatement ((Ensures.trivial _).map fun _ _ => rfl)
  · rw [ofMember_insert]
    exact statement_putStatement ((Ensures.trivial _).map fun _ _ => rfl)
  · rw [ofMember_update]
    exact statement_putStatement ((Ensures.trivial _).map fun _ _ => rfl)
  · rw [ofMember_delete]
    exact statement_putStatement ((Ensures.trivial _).map fun _ _ => rfl)

/-- A statement that is there stays, and each statement's key among the members is the key of the
statement in the end. -/
theorem statement_ofMembers : ∀ (members : List (String × Json)) (q : Query),
    Ensures (q.ofMembers members) fun q' =>
      (∀ s, q.statement = some s → q'.statement = some s) ∧
        ∀ key ∈ statementKeys, hasKey key members = true →
          ∃ s, q'.statement = some s ∧ s.key = key
  | [], q => Ensures.ok ⟨fun _ h => h, fun _ _ h => by cases h⟩
  | (name, value) :: rest, q => by
    rw [ofMembers_cons]
    by_cases hname : name ∈ statementKeys
    · refine (statement_ofMember_of_mem hname value).bind fun q₁ ⟨hnone, s, hs, hkey⟩ => ?_
      refine fun q₂ hq₂ => ?_
      obtain ⟨hkeep, hkeys⟩ := statement_ofMembers rest q₁ q₂ hq₂
      refine ⟨fun s' hs' => ?_, fun key hmem hhas => ?_⟩
      · rw [hnone] at hs'
        cases hs'
      · rw [hasKey, List.any_cons, Bool.or_eq_true, beq_iff_eq] at hhas
        rcases hhas with rfl | hhas
        · exact ⟨s, hkeep s hs, hkey⟩
        · exact hkeys key hmem hhas
    · refine (statement_ofMember hname value).bind fun q₁ heq => ?_
      refine fun q₂ hq₂ => ?_
      obtain ⟨hkeep, hkeys⟩ := statement_ofMembers rest q₁ q₂ hq₂
      refine ⟨fun s hs => hkeep s (heq.trans hs), fun key hmem hhas => ?_⟩
      rw [hasKey, List.any_cons, Bool.or_eq_true, beq_iff_eq] at hhas
      rcases hhas with rfl | hhas
      · exact absurd hmem hname
      · exact hkeys key hmem hhas

end Query

theorem Query.obeys_empty : (∅ : Query).Obeys .decoded :=
  ⟨rfl, trivial, trivial, trivial, trivial, trivial, trivial, trivial, trivial⟩

theorem Filter.obeys_ofTests {field : String} (hfield : isReserved field = false)
    {tests : List Test} (h : Test.AllObey .decoded tests) :
    (ofTests field tests).Obeys .decoded := by
  have hall : ∀ tests : List Test, Test.AllObey .decoded tests →
      Filter.AllObey .decoded (tests.map (.compare field)) := fun tests => by
    induction tests with
    | nil => exact fun _ => trivial
    | cons test rest ih => exact fun h => ⟨⟨hfield, h.1⟩, ih h.2⟩
  unfold ofTests
  split
  · exact ⟨hfield, h.1⟩
  · exact ⟨trivial, hall tests h⟩

theorem Query.isSome_statement {members : List (String × Json)}
    (h : (statementKeys.any fun key => hasKey key members) = true) :
    Ensures (Query.ofMembers ∅ members) fun q => q.statement.isSome = true := by
  intro q hq
  obtain ⟨key, hmem, hhas⟩ := List.any_eq_true.mp h
  obtain ⟨s, hs, -⟩ := (Query.statement_ofMembers members ∅ q hq).2 key hmem hhas
  rw [hs]
  rfl

theorem Query.isSelect_of_hasKey {members : List (String × Json)}
    (h : hasKey "$select" members = true) :
    Ensures (Query.ofMembers ∅ members) fun q => q.isSelect = true := by
  intro q hq
  obtain ⟨s, hs, hkey⟩ := (Query.statement_ofMembers members ∅ q hq).2 "$select" (by decide) h
  rcases s with _ | _ | _ | _
  · rw [isSelect, selectedFields?, hs]
    rfl
  all_goals exact absurd hkey (by simp [Statement.key])

theorem JoinParts.obeys_join {parts : JoinParts}
    (htarget : ∀ r, parts.target = some r → Ensures r (JoinTarget.Obeys .decoded))
    (hcondition : ∀ r, parts.condition = some r → Ensures r (JoinCondition.Obeys .decoded)) :
    Ensures parts.join fun join => Join.AllObey .decoded [join] := by
  rcases parts with ⟨_ | target, _ | condition, label⟩
  · exact Ensures.error _
  · exact Ensures.error _
  · exact (Ensures.trivial _).bind fun _ _ => Ensures.error _
  · refine (htarget target rfl).bind fun t ht => ?_
    have hput : ∀ label, Ensures (condition >>= fun c => .ok (Join.mk t c label))
        fun join => Join.AllObey .decoded [join] := fun label =>
      (hcondition condition rfl).bind fun c hc => Ensures.ok ⟨⟨trivial, ht, hc⟩, trivial⟩
    rcases label with _ | label
    · exact hput none
    · exact (Ensures.trivial (some <$> label)).bind fun label _ => hput label

/-! ## Every part of a document -/

/-- Whatever a value is read as obeys the law. -/
structure Json.Decodes (j : Json) : Prop where
  operand : Ensures (Operand.ofJson j) (Operand.Obeys .decoded)
  field : Ensures (Field.ofJson j) (Field.Obeys .decoded)
  last : Ensures (Test.ofLast j) fun tests =>
    Test.AllObey .decoded tests ∧ (tests.map Test.op).Nodup
  filter : Ensures (Filter.ofJson j) (Filter.Obeys .decoded)
  condition : ∀ field, isReserved field = false →
    Ensures (Filter.ofField field j) (Filter.Obeys .decoded)
  entity : Ensures (Entity.ofJson j) (Entity.Obeys .decoded)
  assignments : ∀ what,
    Ensures (Assignment.ofJson what j) fun table => Assignment.AllObey .decoded table.2
  target : Ensures (JoinTarget.ofJson j) (JoinTarget.Obeys .decoded)
  joinCondition : Ensures (JoinCondition.ofJson j) (JoinCondition.Obeys .decoded)
  join : Ensures (Join.ofJson j) fun join => Join.AllObey .decoded [join]
  order : Ensures (Order.ofJson j) fun order => Order.AllObey .decoded [order]

/-- All values of less than a given size decode. -/
def Json.DecodeBelow (n : ℕ) : Prop :=
  ∀ j : Json, sizeOf j < n → j.WellFormed → j.Decodes

section Below

variable {n : ℕ} (below : Json.DecodeBelow n)

include below

theorem Operand.obeys_ofJsonAll : ∀ {items : List Json}, sizeOf items ≤ n →
    Json.AllWellFormed items → Ensures (Operand.ofJsonAll items) (Operand.AllObey .decoded)
  | [], _, _ => Ensures.ok trivial
  | item :: rest, hn, ⟨hitem, hrest⟩ => by
    rw [List.cons.sizeOf_spec] at hn
    rw [ofJsonAll]
    exact (below item (by omega) hitem).operand.bind fun x hx =>
      (obeys_ofJsonAll (by omega) hrest).map fun xs hxs => ⟨hx, hxs⟩

theorem Field.obeys_ofJsonAll : ∀ {items : List Json}, sizeOf items ≤ n →
    Json.AllWellFormed items → Ensures (Field.ofJsonAll items) (Field.AllObey .decoded)
  | [], _, _ => Ensures.ok trivial
  | item :: rest, hn, ⟨hitem, hrest⟩ => by
    rw [List.cons.sizeOf_spec] at hn
    rw [ofJsonAll]
    exact (below item (by omega) hitem).field.bind fun f hf =>
      (obeys_ofJsonAll (by omega) hrest).map fun fs hfs => ⟨hf, hfs⟩

theorem Filter.obeys_ofJsonAll : ∀ {items : List Json}, sizeOf items ≤ n →
    Json.AllWellFormed items → Ensures (Filter.ofJsonAll items) (Filter.AllObey .decoded)
  | [], _, _ => Ensures.ok trivial
  | item :: rest, hn, ⟨hitem, hrest⟩ => by
    rw [List.cons.sizeOf_spec] at hn
    rw [ofJsonAll]
    exact (below item (by omega) hitem).filter.bind fun f hf =>
      (obeys_ofJsonAll (by omega) hrest).map fun fs hfs => ⟨hf, hfs⟩

theorem Join.obeys_ofJsonAll : ∀ {items : List Json}, sizeOf items ≤ n →
    Json.AllWellFormed items → Ensures (Join.ofJsonAll items) (Join.AllObey .decoded)
  | [], _, _ => Ensures.ok trivial
  | item :: rest, hn, ⟨hitem, hrest⟩ => by
    rw [List.cons.sizeOf_spec] at hn
    rw [ofJsonAll]
    exact (below item (by omega) hitem).join.bind fun ⟨_, _, _⟩ hj =>
      (obeys_ofJsonAll (by omega) hrest).map fun js hjs => ⟨hj.1, hjs⟩

theorem Order.obeys_ofJsonAll : ∀ {items : List Json}, sizeOf items ≤ n →
    Json.AllWellFormed items → Ensures (Order.ofJsonAll items) (Order.AllObey .decoded)
  | [], _, _ => Ensures.ok trivial
  | item :: rest, hn, ⟨hitem, hrest⟩ => by
    rw [List.cons.sizeOf_spec] at hn
    rw [ofJsonAll]
    exact (below item (by omega) hitem).order.bind fun ⟨_, _⟩ ho =>
      (obeys_ofJsonAll (by omega) hrest).map fun os hos => ⟨ho.1, hos⟩

theorem Filter.obeys_ofCall : ∀ {items : List Json}, sizeOf items ≤ n →
    Json.AllWellFormed items → Ensures (Filter.ofCall items) fun call =>
      Operand.AllObey .decoded call.1 ∧ Test.AllObey .decoded call.2 ∧ (call.2.map Test.op).Nodup
  | [], _, _ => Ensures.ok ⟨trivial, trivial, List.nodup_nil⟩
  | [last], hn, ⟨hlast, _⟩ => by
    rw [List.cons.sizeOf_spec] at hn
    rw [ofCall]
    exact (below last (by omega) hlast).last.map fun tests htests => ⟨trivial, htests⟩
  | item :: second :: rest, hn, ⟨hitem, hrest⟩ => by
    rw [List.cons.sizeOf_spec] at hn
    rw [ofCall]
    · exact (below item (by omega) hitem).operand.bind fun x hx =>
        (obeys_ofCall (by omega) hrest).map fun call hcall => ⟨⟨hx, hcall.1⟩, hcall.2⟩
    · intro h
      cases h

theorem Assignment.obeys_ofMembers : ∀ {members : List (String × Json)}, sizeOf members ≤ n →
    Json.MembersWellFormed members →
    Ensures (Assignment.ofMembers members) (Assignment.AllObey .decoded)
  | [], _, _ => Ensures.ok trivial
  | (column, value) :: rest, hn, ⟨hvalue, hrest⟩ => by
    rw [List.cons.sizeOf_spec, Prod.mk.sizeOf_spec] at hn
    rw [ofMembers]
    exact (below value (by omega) hvalue).operand.bind fun x hx =>
      (obeys_ofMembers (by omega) hrest).map fun vs hvs => ⟨⟨trivial, hx⟩, hvs⟩

theorem Test.obeys_ofMembers : ∀ {members : List (String × Json)}, sizeOf members ≤ n →
    (members.map Prod.fst).Nodup → Json.MembersWellFormed members →
    Ensures (Test.ofMembers members) fun tests =>
      (Test.AllObey .decoded tests ∧ (tests.map Test.op).Nodup) ∧
        ∀ test ∈ tests, test.op.key ∈ members.map Prod.fst
  | [], _, _, _ => Ensures.ok ⟨⟨trivial, List.nodup_nil⟩, nofun⟩
  | (key, value) :: rest, hn, hnodup, ⟨hvalue, hrest⟩ => by
    rw [List.cons.sizeOf_spec, Prod.mk.sizeOf_spec] at hn
    rw [List.map_cons, List.nodup_cons] at hnodup
    have hsize : sizeOf rest ≤ n := by omega
    have ih := obeys_ofMembers hsize hnodup.2 hrest
    rw [ofMembers]
    split
    · exact fun tests htests =>
        ⟨(ih tests htests).1, fun t ht => List.mem_cons_of_mem _ ((ih tests htests).2 t ht)⟩
    · rename_i op hop
      have hkey := ComparisonOp.key_of_ofKey? hop
      refine (below value (by omega) hvalue).operand.bind fun x hx => ih.map fun tests htests => ?_
      refine ⟨⟨⟨hx, htests.1.1⟩, List.nodup_cons.mpr ⟨fun hmem => ?_, htests.1.2⟩⟩, ?_⟩
      · obtain ⟨t, ht, hsame⟩ := List.mem_map.mp hmem
        have hfirst : t.op.key = key := by
          rw [← hkey]
          exact congrArg ComparisonOp.key hsame
        exact hnodup.1 (hfirst ▸ htests.2 t ht)
      · rintro t ht
        rcases List.mem_cons.mp ht with rfl | ht
        · rw [hkey]
          exact List.mem_cons_self
        · exact List.mem_cons_of_mem _ (htests.2 t ht)

theorem Field.obeys_ofMembers {members : List (String × Json)} (hn : sizeOf members ≤ n)
    (hwf : Json.MembersWellFormed members) :
    Ensures (Field.ofMembers members) (Field.Obeys .decoded) := by
  rcases members with _ | ⟨⟨key, value⟩, _ | ⟨second, rest⟩⟩
  · exact Ensures.error _
  · obtain ⟨hvalue, -⟩ := hwf
    rw [List.cons.sizeOf_spec, Prod.mk.sizeOf_spec] at hn
    unfold ofMembers
    refine Ensures.ite (fun _ => ?_) fun _ => Ensures.ite (fun _ => ?_) fun _ =>
      Ensures.ite (fun _ => Ensures.error _) fun hlabel => ?_
    · exact (Ensures.trivial _).bind fun text _ => Ensures.ok (obeys_select text)
    · refine (Value.isFinite_ofJson hvalue).bind fun v hv => Ensures.ok ⟨?_, hv⟩
      rintro text ⟨⟩
    · rw [Bool.not_eq_true] at hlabel
      split
      · exact Ensures.ok hlabel
      · rename_i func argument
        obtain ⟨-, hargument, -⟩ := hvalue
        simp only [Json.object.sizeOf_spec, List.cons.sizeOf_spec, Prod.mk.sizeOf_spec] at hn
        refine Ensures.ite (fun _ => ?_) fun hconstant => ?_
        · refine (Value.isFinite_ofJson hargument).bind fun v hv => Ensures.ok ⟨?_, hv⟩
          rintro text ⟨⟩
          exact hlabel
        · split
          · exact (Ensures.trivial _).bind fun text _ => Ensures.ok hlabel
          · rename_i haggregate
            split
            · exact Ensures.error _
            · rename_i name hname
              obtain ⟨rfl, hne⟩ := functionName?_eq_some hname
              have hother := not_mem_otherKeys hconstant haggregate
              split
              · rename_i items
                rw [Json.array.sizeOf_spec] at hn
                exact (Operand.obeys_ofJsonAll below (by omega) hargument).bind fun args hargs =>
                  Ensures.ok ⟨⟨hlabel, hne, hother⟩, hargs⟩
              · exact (below argument (by omega) hargument).operand.bind fun x hx =>
                  Ensures.ok ⟨⟨hlabel, hne, hother⟩, hx, trivial⟩
      · exact Ensures.error _
      · exact Ensures.error _
  · exact Ensures.error _

theorem Filter.obeys_ofMembers {members : List (String × Json)} (hn : sizeOf members ≤ n)
    (hwf : Json.MembersWellFormed members) :
    Ensures (Filter.ofMembers members) (Filter.Obeys .decoded) := by
  rcases members with _ | ⟨⟨key, value⟩, _ | ⟨second, rest⟩⟩
  · exact Ensures.error _
  · obtain ⟨hvalue, -⟩ := hwf
    rw [List.cons.sizeOf_spec, Prod.mk.sizeOf_spec] at hn
    unfold ofMembers
    split
    · split
      · rw [Json.array.sizeOf_spec] at hn
        exact (obeys_ofJsonAll below (by omega) hvalue).bind fun fs hfs =>
          Ensures.ok ⟨trivial, hfs⟩
      · exact Ensures.error _
    · refine Ensures.ite (fun _ => Ensures.error _) fun hkey => ?_
      rw [Bool.not_eq_true] at hkey
      exact (below value (by omega) hvalue).condition key hkey
  · exact Ensures.error _

theorem Entity.obeys_ofMembers : ∀ {members : List (String × Json)} {parts : EntityParts},
    sizeOf members ≤ n → Json.MembersWellFormed members →
    (∀ table, parts.table = some table → Field.AllObey .decoded table.2) →
    Ensures (Entity.ofMembers parts members) (Entity.Obeys .decoded)
  | [], parts, _, _, hparts => by
    rw [ofMembers, EntityParts.entity]
    split
    · rename_i htable
      exact Ensures.ok ⟨trivial, hparts _ htable⟩
    · exact Ensures.error _
  | (key, value) :: rest, parts, hn, ⟨hvalue, hrest⟩, hparts => by
    rw [List.cons.sizeOf_spec, Prod.mk.sizeOf_spec] at hn
    have hnext : ∀ fields, Field.AllObey .decoded fields → Ensures
        (ofMembers { table := some (key, fields), label := parts.label } rest) (Obeys .decoded) :=
      fun fields hfields => obeys_ofMembers (by omega) hrest (by rintro table ⟨⟩; exact hfields)
    unfold ofMembers
    refine Ensures.ite (fun _ => ?_) fun _ => Ensures.ite (fun _ => Ensures.error _) fun _ =>
      Ensures.ite (fun _ => Ensures.error _) fun _ => ?_
    · exact (Ensures.trivial _).bind fun label _ => obeys_ofMembers (by omega) hrest hparts
    · have hone := (below value (by omega) hvalue).field.bind fun f hf => hnext [f] ⟨hf, trivial⟩
      rcases value with _ | _ | _ | _ | _ | items | _
      case null => exact hnext [] trivial
      case array =>
        rw [Json.array.sizeOf_spec] at hn
        exact (Field.obeys_ofJsonAll below (by omega) hvalue).bind hnext
      all_goals exact hone

theorem Query.obeys_ofMember {q : Query} (hq : q.Obeys .decoded) {key : String} {value : Json}
    (hn : sizeOf value < n) (hwf : value.WellFormed) :
    Ensures (q.ofMember (key, value)) (Query.Obeys .decoded) := by
  have hvalue := below value hn hwf
  obtain ⟨hstaged, hs, hjs, hf, hp, hos, hgs, hst⟩ := obeys_iff.mp hq
  have hput : ∀ {read : Unit → Except QueryError Statement},
      Ensures (read ()) (Statement.Obeys .decoded) →
        Ensures (q.putStatement key read) (Query.Obeys .decoded) := fun hread => by
    unfold putStatement
    split
    · exact Ensures.error _
    · exact hread.bind fun s hs => Ensures.ok
        (obeys_iff.mpr ⟨hstaged, hs, hjs, hf, hp, hos, hgs, hst⟩)
  unfold ofMember ofMembers
  refine Ensures.bind ?_ fun q' hq' => Ensures.ok hq'
  -- One goal for each key, in the order in which the keys are tried.
  repeat' refine Ensures.ite (fun _ => ?_) fun _ => ?_
  · exact hput (hvalue.entity.map fun _ he => Statement.obeys_select he)
  · exact hput ((hvalue.assignments key).map fun _ hvs => ⟨trivial, hvs⟩)
  · exact hput ((hvalue.assignments key).map fun _ hvs => ⟨trivial, hvs⟩)
  · exact hput ((Ensures.trivial _).map fun _ _ => trivial)
  · have hone : Ensures ((fun join => { q with joins := [join] }) <$> Join.ofJson value)
        (Query.Obeys .decoded) := hvalue.join.map fun _ hj =>
      obeys_iff.mpr ⟨hstaged, hs, hj, hf, hp, hos, hgs, hst⟩
    rcases value with _ | _ | _ | _ | _ | items | _
    case array =>
      rw [Json.array.sizeOf_spec] at hn
      exact (Join.obeys_ofJsonAll below (by omega) hwf).map fun _ hjs =>
        obeys_iff.mpr ⟨hstaged, hs, hjs, hf, hp, hos, hgs, hst⟩
    all_goals exact hone
  · have hset : Ensures ((fun filter => { q with filter := some filter }) <$> Filter.ofJson value)
        (Query.Obeys .decoded) := hvalue.filter.map fun _ hf =>
      obeys_iff.mpr ⟨hstaged, hs, hjs, hf, hp, hos, hgs, hst⟩
    rcases value
    case null => exact Ensures.ok hq
    all_goals exact hset
  · have hset : Ensures ((fun filter => { q with prepared := some filter }) <$> Filter.ofJson value)
        (Query.Obeys .decoded) := hvalue.filter.map fun _ hp =>
      obeys_iff.mpr ⟨hstaged, hs, hjs, hf, hp, hos, hgs, hst⟩
    rcases value
    case null => exact Ensures.ok hq
    all_goals exact hset
  · rcases value with _ | _ | _ | _ | _ | items | _
    case array =>
      rw [Json.array.sizeOf_spec] at hn
      exact (Order.obeys_ofJsonAll below (by omega) hwf).map fun _ hos =>
        obeys_iff.mpr ⟨hstaged, hs, hjs, hf, hp, hos, hgs, hst⟩
    all_goals exact Ensures.error _
  · have hone : Ensures ((fun field => { q with groups := [field] }) <$> Field.ofJson value)
        (Query.Obeys .decoded) := hvalue.field.map fun _ hf' =>
      obeys_iff.mpr ⟨hstaged, hs, hjs, hf, hp, hos, ⟨hf', trivial⟩, hst⟩
    rcases value with _ | _ | _ | _ | _ | items | _
    case array =>
      rw [Json.array.sizeOf_spec] at hn
      exact (Field.obeys_ofJsonAll below (by omega) hwf).map fun _ hgs =>
        obeys_iff.mpr ⟨hstaged, hs, hjs, hf, hp, hos, hgs, hst⟩
    all_goals exact hone
  iterate 5
    · exact (Ensures.trivial _).map fun _ _ =>
        obeys_iff.mpr ⟨hstaged, hs, hjs, hf, hp, hos, hgs, hst⟩
  · exact Ensures.error _
  · exact Ensures.error _

theorem Query.obeys_ofMembers : ∀ {members : List (String × Json)} {q : Query},
    sizeOf members ≤ n → Json.MembersWellFormed members → q.Obeys .decoded →
    Ensures (q.ofMembers members) (Query.Obeys .decoded)
  | [], _, _, _, hq => Ensures.ok hq
  | (key, value) :: rest, q, hn, ⟨hvalue, hrest⟩, hq => by
    rw [List.cons.sizeOf_spec, Prod.mk.sizeOf_spec] at hn
    rw [ofMembers_cons]
    exact (obeys_ofMember below hq (by omega) hvalue).bind fun q' hq' =>
      obeys_ofMembers (by omega) hrest hq'

theorem Operand.obeys_ofObject {members : List (String × Json)} (hn : sizeOf members ≤ n)
    (hnodup : (members.map Prod.fst).Nodup) (hwf : Json.MembersWellFormed members) :
    Ensures (Operand.ofObject members (fun _ => Field.ofMembers members)
      (fun _ => Query.ofMembers ∅ members)) (Operand.Obeys .decoded) := by
  have hfield : Ensures (do return Operand.field (← Field.ofMembers members))
      (Operand.Obeys .decoded) :=
    (Field.obeys_ofMembers below hn hwf).bind fun f hf => Ensures.ok ⟨trivial, hf⟩
  unfold ofObject
  refine Ensures.ite (fun _ => ?_) fun _ => Ensures.ite (fun _ => hfield) fun _ =>
    Ensures.ite (fun hstatement => ?_) fun _ => Ensures.ite (fun _ => hfield) fun _ =>
      Ensures.error _
  · exact (Value.isFinite_ofJson (show (Json.object members).WellFormed from ⟨hnodup, hwf⟩)).bind
      fun v hv => Ensures.ok ⟨trivial, hv⟩
  · have hobeys := Query.obeys_ofMembers below hn hwf Query.obeys_empty
    have hsome := Query.isSome_statement hstatement
    exact (hobeys.and hsome).bind fun q hq => Ensures.ok ⟨hq.2, hq.1⟩

theorem Operand.obeys_ofJson {j : Json} (hn : sizeOf j ≤ n) (hwf : j.WellFormed) :
    Ensures (Operand.ofJson j) (Operand.Obeys .decoded) := by
  unfold ofJson
  split
  · rw [Json.array.sizeOf_spec] at hn
    exact (obeys_ofJsonAll below (by omega) hwf).bind fun xs hxs => Ensures.ok ⟨trivial, hxs⟩
  · rw [Json.object.sizeOf_spec] at hn
    exact obeys_ofObject below (by omega) hwf.1 hwf.2
  · exact (Value.isFinite_ofJson hwf).bind fun v hv => Ensures.ok ⟨trivial, hv⟩

theorem Field.obeys_ofJson {j : Json} (hn : sizeOf j ≤ n) (hwf : j.WellFormed) :
    Ensures (Field.ofJson j) (Field.Obeys .decoded) := by
  unfold ofJson
  split
  · exact Ensures.ok (obeys_select _)
  · rw [Json.object.sizeOf_spec] at hn
    exact obeys_ofMembers below (by omega) hwf.2
  · exact Ensures.error _

theorem Test.obeys_ofLast {j : Json} (hn : sizeOf j ≤ n) (hwf : j.WellFormed) :
    Ensures (Test.ofLast j) fun tests =>
      Test.AllObey .decoded tests ∧ (tests.map Test.op).Nodup := by
  have hone : ∀ {x : Operand}, x.Obeys .decoded →
      Test.AllObey .decoded [⟨.eq, x⟩] ∧ ([⟨.eq, x⟩].map Test.op).Nodup := fun hx =>
    ⟨⟨hx, trivial⟩, List.nodup_singleton _⟩
  unfold ofLast
  split
  · rw [Json.object.sizeOf_spec] at hn
    refine Ensures.ite (fun _ => ?_) fun _ => ?_
    · exact fun tests htests => (obeys_ofMembers below (by omega) hwf.1 hwf.2 tests htests).1
    · exact (Operand.obeys_ofObject below (by omega) hwf.1 hwf.2).bind fun x hx =>
        Ensures.ok (hone hx)
  · rw [Json.array.sizeOf_spec] at hn
    exact (Operand.obeys_ofJsonAll below (by omega) hwf).bind fun xs hxs =>
      Ensures.ok (hone ⟨trivial, hxs⟩)
  · exact (Value.isFinite_ofJson hwf).bind fun v hv => Ensures.ok (hone ⟨trivial, hv⟩)

theorem Filter.obeys_ofField {j : Json} (hn : sizeOf j ≤ n) (hwf : j.WellFormed) {field : String}
    (hfield : isReserved field = false) :
    Ensures (Filter.ofField field j) (Filter.Obeys .decoded) := by
  unfold ofField
  split
  · exact Ensures.ok ⟨hfield, trivial, trivial⟩
  · rename_i members hne
    rw [Json.object.sizeOf_spec] at hn
    refine Ensures.ite (fun _ => ?_) fun hnames => Ensures.ite (fun _ => ?_) fun hoperand => ?_
    · exact (Test.obeys_ofMembers below (by omega) hwf.1 hwf.2).bind fun tests htests =>
        Ensures.ok (obeys_ofTests hfield htests.1.1)
    · exact (Operand.obeys_ofObject below (by omega) hwf.1 hwf.2).bind fun x hx =>
        Ensures.ok ⟨hfield, hx⟩
    · split
      · rename_i key argument
        obtain ⟨-, hargument, -⟩ := hwf
        rw [Bool.not_eq_true] at hnames hoperand
        simp only [List.cons.sizeOf_spec, Prod.mk.sizeOf_spec] at hn
        split
        · exact Ensures.error _
        · rename_i name hname
          obtain ⟨rfl, hempty⟩ := functionName?_eq_some hname
          have hother := not_mem_otherKeys hnames hoperand
          split
          · rw [Json.array.sizeOf_spec] at hn
            exact (obeys_ofCall below (by omega) hargument).bind fun call hcall =>
              Ensures.ok ⟨⟨hfield, hempty, hother, hcall.2.2⟩, hcall.1, hcall.2.1⟩
          · exact (below argument (by omega) hargument).last.bind fun tests htests =>
              Ensures.ok ⟨⟨hfield, hempty, hother, htests.2⟩, trivial, htests.1⟩
      · exact Ensures.error _
  · rw [Json.array.sizeOf_spec] at hn
    exact (Operand.obeys_ofJsonAll below (by omega) hwf).bind fun xs hxs =>
      Ensures.ok ⟨hfield, trivial, hxs⟩
  · exact (Value.isFinite_ofJson hwf).bind fun v hv => Ensures.ok ⟨hfield, trivial, hv⟩

theorem Assignment.obeys_ofJson {j : Json} (hn : sizeOf j ≤ n) (hwf : j.WellFormed)
    (what : String) :
    Ensures (Assignment.ofJson what j) fun table => Assignment.AllObey .decoded table.2 := by
  unfold ofJson
  split
  · obtain ⟨-, hvalues, -⟩ := hwf
    simp only [Json.object.sizeOf_spec, List.cons.sizeOf_spec, Prod.mk.sizeOf_spec] at hn
    exact (obeys_ofMembers below (by omega) hvalues.2).bind fun vs hvs => Ensures.ok hvs
  · exact Ensures.error _
  · exact Ensures.error _
  · exact Ensures.error _

theorem JoinTarget.obeys_ofJson {j : Json} (hn : sizeOf j ≤ n) (hwf : j.WellFormed) :
    Ensures (JoinTarget.ofJson j) (JoinTarget.Obeys .decoded) := by
  unfold ofJson
  split
  · exact Ensures.ok ⟨trivial, trivial, trivial⟩
  · rw [Json.object.sizeOf_spec] at hn
    refine Ensures.ite (fun hselect => ?_) fun _ => ?_
    · have hobeys := Query.obeys_ofMembers below (by omega) hwf.2 Query.obeys_empty
      have hsome := Query.isSelect_of_hasKey hselect
      exact (hobeys.and hsome).bind fun q hq => Ensures.ok ⟨hq.2, hq.1⟩
    · exact (Entity.obeys_ofMembers below (by omega) hwf.2 (fun _ h => by cases h)).bind
        fun e he => Ensures.ok ⟨trivial, he⟩
  · exact Ensures.error _

theorem JoinCondition.obeys_ofJson {j : Json} (hn : sizeOf j ≤ n) (hwf : j.WellFormed) :
    Ensures (JoinCondition.ofJson j) (JoinCondition.Obeys .decoded) := by
  unfold ofJson
  split
  · exact (Ensures.trivial _).bind fun sides _ => Ensures.ok fun _ _ => trivial
  · rw [Json.object.sizeOf_spec] at hn
    exact (Filter.obeys_ofMembers below (by omega) hwf.2).bind fun f hf => Ensures.ok hf
  · exact Ensures.error _

theorem Filter.obeys_ofJson {j : Json} (hn : sizeOf j ≤ n) (hwf : j.WellFormed) :
    Ensures (Filter.ofJson j) (Filter.Obeys .decoded) := by
  unfold ofJson
  split
  · rw [Json.object.sizeOf_spec] at hn
    exact obeys_ofMembers below (by omega) hwf.2
  · exact Ensures.error _

theorem Entity.obeys_ofJson {j : Json} (hn : sizeOf j ≤ n) (hwf : j.WellFormed) :
    Ensures (Entity.ofJson j) (Entity.Obeys .decoded) := by
  unfold ofJson
  split
  · exact Ensures.ok ⟨trivial, trivial⟩
  · rw [Json.object.sizeOf_spec] at hn
    exact obeys_ofMembers below (by omega) hwf.2 fun _ h => by cases h
  · exact Ensures.error _

theorem Order.obeys_ofJson {j : Json} (hn : sizeOf j ≤ n) (hwf : j.WellFormed) :
    Ensures (Order.ofJson j) fun order => Order.AllObey .decoded [order] := by
  unfold ofJson
  split
  · rename_i key value
    obtain ⟨-, hvalue, -⟩ := hwf
    simp only [Json.object.sizeOf_spec, List.cons.sizeOf_spec, Prod.mk.sizeOf_spec] at hn
    split
    · exact Ensures.error _
    · split
      · rw [Json.array.sizeOf_spec] at hn
        exact (Field.obeys_ofJsonAll below (by omega) hvalue).bind fun fs hfs =>
          Ensures.ok ⟨hfs, trivial⟩
      · exact (below value (by omega) hvalue).field.bind fun f hf =>
          Ensures.ok ⟨⟨hf, trivial⟩, trivial⟩
  · exact Ensures.error _
  · exact Ensures.error _

/-- The parts that a join's members write obey the law where they are read at all. -/
theorem JoinParts.obeys_ofMembers : ∀ {members : List (String × Json)}, sizeOf members ≤ n →
    Json.MembersWellFormed members →
    (∀ r, (JoinParts.ofMembers members).target = some r → Ensures r (JoinTarget.Obeys .decoded)) ∧
      ∀ r, (JoinParts.ofMembers members).condition = some r →
        Ensures r (JoinCondition.Obeys .decoded)
  | [], _, _ => ⟨fun _ h => (by cases h), fun _ h => by cases h⟩
  | (key, value) :: rest, hn, ⟨hvalue, hrest⟩ => by
    rw [List.cons.sizeOf_spec, Prod.mk.sizeOf_spec] at hn
    have hdecodes := below value (by omega) hvalue
    have hsize : sizeOf rest ≤ n := by omega
    obtain ⟨htarget, hcondition⟩ := obeys_ofMembers hsize hrest
    unfold ofMembers
    split_ifs
    · refine ⟨?_, hcondition⟩
      rintro r ⟨⟩
      exact hdecodes.target
    · refine ⟨htarget, ?_⟩
      rintro r ⟨⟩
      exact hdecodes.joinCondition
    · exact ⟨htarget, hcondition⟩
    · exact ⟨htarget, hcondition⟩

theorem Join.obeys_ofJson {j : Json} (hn : sizeOf j ≤ n) (hwf : j.WellFormed) :
    Ensures (Join.ofJson j) fun join => Join.AllObey .decoded [join] := by
  unfold ofJson
  split
  · rename_i members
    rw [Json.object.sizeOf_spec] at hn
    have hsize : sizeOf members ≤ n := by omega
    obtain ⟨htarget, hcondition⟩ := JoinParts.obeys_ofMembers below hsize hwf.2
    split
    · exact Ensures.error _
    · exact JoinParts.obeys_join htarget hcondition
  · exact Ensures.error _

end Below

theorem Json.decodes (j : Json) (h : j.WellFormed) : j.Decodes := by
  have below : Json.DecodeBelow (sizeOf j) := fun j' _ h' => Json.decodes j' h'
  exact
    { operand := Operand.obeys_ofJson below le_rfl h
      field := Field.obeys_ofJson below le_rfl h
      last := Test.obeys_ofLast below le_rfl h
      filter := Filter.obeys_ofJson below le_rfl h
      condition := fun _ hfield => Filter.obeys_ofField below le_rfl h hfield
      entity := Entity.obeys_ofJson below le_rfl h
      assignments := Assignment.obeys_ofJson below le_rfl h
      target := JoinTarget.obeys_ofJson below le_rfl h
      joinCondition := JoinCondition.obeys_ofJson below le_rfl h
      join := Join.obeys_ofJson below le_rfl h
      order := Order.obeys_ofJson below le_rfl h }
termination_by sizeOf j

/-- Whatever document is read, the query that it gives obeys the law. -/
theorem Query.obeys_ofJson {j : Json} (h : j.WellFormed) :
    Ensures (Query.ofJson j) (Query.Obeys .decoded) := by
  rcases j with _ | _ | _ | _ | _ | _ | members
  case object =>
    exact Query.obeys_ofMembers (fun j _ => Json.decodes j) le_rfl h.2 Query.obeys_empty
  all_goals exact Ensures.error _

end QueryCompiler
