import QueryCompiler.Proofs.Decoded
import QueryCompiler.Proofs.MemberOrder
import QueryCompiler.Proofs.Rearranged

/-!
# The order of keys

A document is read to the same query whatever the order of the keys in its objects
(`Query.ofJson_rearranged`). There is one theorem for each function that reads, by recursion on the
document, as for what reading gives. An object is rearranged within first, and its parts are read
alike, and then its members are put into another order.
-/

namespace QueryCompiler

open Json (hasKey namesTests namesOperand definesField)

/-- The two values are read alike in the role. An object that is a call or a list of tests has no
reading of its own; it is read with what stands around it. -/
def Role.Alike : Role → Json → Json → Prop
  | query, j, j' => SameResult (Query.ofJson j) (Query.ofJson j')
  | entity, j, j' => SameResult (Entity.ofJson j) (Entity.ofJson j')
  | table, j, j' => ∀ what, SameResult (Assignment.ofJson what j) (Assignment.ofJson what j')
  | values, _, _ => True
  | join, j, j' => SameResult (Join.ofJson j) (Join.ofJson j')
  | target, j, j' => SameResult (JoinTarget.ofJson j) (JoinTarget.ofJson j')
  | filter, j, j' => SameResult (Filter.ofJson j) (Filter.ofJson j') ∧
      SameResult (JoinCondition.ofJson j) (JoinCondition.ofJson j')
  | comparison, j, j' => ∀ field, SameResult (Filter.ofField field j) (Filter.ofField field j')
  | call, _, _ => True
  | tests, _, _ => True
  | operand, j, j' => SameResult (Operand.ofJson j) (Operand.ofJson j') ∧
      SameResult (Test.ofLast j) (Test.ofLast j')
  | field, j, j' => SameResult (Field.ofJson j) (Field.ofJson j')
  | definition, _, _ => True
  | order, j, j' => SameResult (Order.ofJson j) (Order.ofJson j')

/-- All values of less than a given size are read alike when they are rearranged. -/
def Json.AlikeBelow (n : ℕ) : Prop :=
  ∀ j : Json, sizeOf j < n → j.WellFormed → ∀ role j', Rearranged role j j' → role.Alike j j'

/-! ## Keys -/

theorem ComparisonOp.ofKey?_of_not_reserved {key : String} (h : isReserved key = false) :
    ofKey? key = none := by
  by_contra hsome
  obtain ⟨op, hop⟩ := Option.ne_none_iff_exists'.mp hsome
  obtain ⟨name, -, hmark⟩ := op.key_eq_mark
  rw [← key_of_ofKey? hop, hmark, isReserved_mark] at h
  cases h

theorem Json.namesTests_eq_false {key : String} {members : List (String × Json)}
    (h : hasKey key members = true) (hkey : ComparisonOp.ofKey? key = none) :
    namesTests members = false := by
  obtain ⟨⟨name, j⟩, hmem, hname⟩ := List.any_eq_true.mp h
  obtain rfl : name = key := eq_of_beq hname
  exact List.all_eq_false.mpr ⟨(name, j), hmem, by simp [hkey]⟩

theorem Json.namesTests_eq_false_of_definesField {members : List (String × Json)}
    (h : definesField members = true) : namesTests members = false := by
  have hsingle : ∀ {label : String} {j : Json}, isReserved label = false →
      namesTests [(label, j)] = false := fun {label j} hlabel => by
    rw [namesTests, List.all_cons, ComparisonOp.ofKey?_of_not_reserved hlabel]
    rfl
  unfold definesField at h
  split at h
  · rw [Bool.not_eq_true'] at h
    exact hsingle h
  · rw [Bool.and_eq_true, Bool.not_eq_true'] at h
    exact hsingle h.1
  · cases h

theorem Role.ofOperand_eq_query {members : List (String × Json)}
    (h : (statementKeys.any fun key => hasKey key members) = true) :
    ofOperand members = query := by
  obtain ⟨key, hmem, hkey⟩ := List.any_eq_true.mp h
  have hop : ∀ key ∈ statementKeys, ComparisonOp.ofKey? key = none := by decide
  rw [ofOperand, Json.namesTests_eq_false hkey (hop key hmem), h]
  rfl

/-! ## Comparisons -/

/-- The call of a function that an object's only member writes. -/
def Filter.ofFunction (field : String) : List (String × Json) → Except QueryError Filter
  | [(key, argument)] =>
    match functionName? key with
    | none => .error (.unknownOperator key)
    | some name => match argument with
      | .array items => (fun call => .function field name call.1 call.2) <$> Filter.ofCall items
      | other => (fun tests => .function field name [] tests) <$> Test.ofLast other
  | members => .error (.notOneKey "comparison" members.length)

/-- An object that is no list of tests and no operand is read as the call of a function. -/
theorem Filter.ofField_object (field : String) (members : List (String × Json)) :
    ofField field (.object members) =
      if members.isEmpty then .ok (.equals field .null)
      else if namesTests members then .ofTests field <$> Test.ofMembers members
      else if namesOperand members then .equals field <$> Operand.ofObject members
        (fun _ => Field.ofMembers members) (fun _ => Query.ofMembers ∅ members)
      else ofFunction field members := by
  rcases members with _ | ⟨⟨key, argument⟩, _ | ⟨second, rest⟩⟩
  · rfl
  · unfold ofField
    rfl
  · unfold ofField
    rfl

section Below

variable {n : ℕ} (below : Json.AlikeBelow n)

include below

/-! ## Lists -/

section Items

variable {items items' : List Json} (hn : sizeOf items ≤ n) (hwf : Json.AllWellFormed items)

include hn hwf

theorem Json.alike_of_mem : ∀ j ∈ items, ∀ role j', Rearranged role j j' → role.Alike j j' :=
  fun j hj => below j (wellFormed_of_mem hn hwf j hj).1 (wellFormed_of_mem hn hwf j hj).2

theorem Operand.sameResult_ofJsonAll (h : RearrangedItems .operand items items') :
    SameResult (ofJsonAll items) (ofJsonAll items') :=
  h.sameResult (fun _ _ => by rw [ofJsonAll]) fun j hj j' hr =>
    (Json.alike_of_mem below hn hwf j hj _ j' hr).1

theorem Field.sameResult_ofJsonAll (h : RearrangedItems .field items items') :
    SameResult (ofJsonAll items) (ofJsonAll items') :=
  h.sameResult (fun _ _ => by rw [ofJsonAll]) fun j hj j' hr =>
    Json.alike_of_mem below hn hwf j hj _ j' hr

theorem Filter.sameResult_ofJsonAll (h : RearrangedItems .filter items items') :
    SameResult (ofJsonAll items) (ofJsonAll items') :=
  h.sameResult (fun _ _ => by rw [ofJsonAll]) fun j hj j' hr =>
    (Json.alike_of_mem below hn hwf j hj _ j' hr).1

theorem Join.sameResult_ofJsonAll (h : RearrangedItems .join items items') :
    SameResult (ofJsonAll items) (ofJsonAll items') :=
  h.sameResult (fun _ _ => by rw [ofJsonAll]) fun j hj j' hr =>
    Json.alike_of_mem below hn hwf j hj _ j' hr

theorem Order.sameResult_ofJsonAll (h : RearrangedItems .order items items') :
    SameResult (ofJsonAll items) (ofJsonAll items') :=
  h.sameResult (fun _ _ => by rw [ofJsonAll]) fun j hj j' hr =>
    Json.alike_of_mem below hn hwf j hj _ j' hr

end Items

theorem Filter.sameResult_ofCall : ∀ {items items' : List Json}, sizeOf items ≤ n →
    Json.AllWellFormed items → RearrangedItems .operand items items' →
      SameResult (Filter.ofCall items) (Filter.ofCall items')
  | _, _, _, _, .nil _ => .refl _
  | [last], _, hn, ⟨hlast, _⟩, .cons h (.nil _) => by
    rw [List.cons.sizeOf_spec] at hn
    rw [ofCall, ofCall]
    exact (below last (by omega) hlast .operand _ h).2.bind fun _ _ => .refl _
  | item :: _ :: _, _, hn, ⟨hitem, hrest⟩, .cons h (.cons h' h'') => by
    rw [List.cons.sizeOf_spec] at hn
    have hcons : ∀ item second rest, ofCall (item :: second :: rest) =
        Operand.ofJson item >>= fun argument => ofCall (second :: rest) >>= fun call =>
          pure (argument :: call.1, call.2) := fun _ _ _ => by
      rw [ofCall]
      simp
    rw [hcons, hcons]
    exact (below item (by omega) hitem .operand _ h).1.bind fun _ _ =>
      (sameResult_ofCall (by omega) hrest (.cons h' h'')).bind fun _ _ => .refl _

/-! ## Members whose order counts -/

theorem Test.sameResult_ofMembers : ∀ {members members' : List (String × Json)},
    sizeOf members ≤ n → Json.MembersWellFormed members →
      RearrangedMembers .tests members members' →
        SameResult (Test.ofMembers members) (Test.ofMembers members')
  | _, _, _, _, .nil _ => .refl _
  | (key, j) :: rest, _, hn, ⟨hj, hrest⟩, .cons h h' => by
    rw [List.cons.sizeOf_spec, Prod.mk.sizeOf_spec] at hn
    have ih := sameResult_ofMembers (by omega) hrest h'
    rw [ofMembers, ofMembers]
    split
    · exact ih
    · exact (below j (by omega) hj .operand _ h).1.bind fun _ _ => ih.bind fun _ _ => .refl _

theorem Assignment.sameResult_ofMembers : ∀ {members members' : List (String × Json)},
    sizeOf members ≤ n → Json.MembersWellFormed members →
      RearrangedMembers .values members members' →
        SameResult (Assignment.ofMembers members) (Assignment.ofMembers members')
  | _, _, _, _, .nil _ => .refl _
  | (key, j) :: rest, _, hn, ⟨hj, hrest⟩, .cons h h' => by
    rw [List.cons.sizeOf_spec, Prod.mk.sizeOf_spec] at hn
    rw [ofMembers, ofMembers]
    exact (below j (by omega) hj .operand _ h).1.bind fun _ _ =>
      (sameResult_ofMembers (by omega) hrest h').bind fun _ _ => .refl _

/-! ## Fields -/

theorem Field.sameResult_definition (label : String) {j j' : Json} (hn : sizeOf j ≤ n)
    (hwf : j.WellFormed) (h : Rearranged .definition j j') :
    SameResult (Field.ofMembers [(label, j)]) (Field.ofMembers [(label, j')]) := by
  unfold ofMembers
  refine .ite (fun _ => ?_) fun _ => .ite (fun _ => ?_) fun _ => .ite (fun _ => .refl _) fun _ => ?_
  · exact (h.sameResult_text _).bind fun _ _ => .refl _
  · exact h.sameResult_value.bind fun _ _ => .refl _
  · cases h with
    | same => exact .refl _
    | array _ => exact .error _ _
    | object hinner hperm hordered =>
      rcases Shuffled.cases_length ⟨_, hinner, hperm, hordered⟩ with ⟨rfl, rfl⟩ |
        ⟨func, j, j', rfl, rfl, hj⟩ | ⟨⟨⟨_, _⟩, b, rest, rfl⟩, ⟨_, _⟩, b', rest', rfl⟩
      · exact .refl _
      · obtain ⟨-, hwf, -⟩ := hwf
        simp only [Json.object.sizeOf_spec, List.cons.sizeOf_spec, Prod.mk.sizeOf_spec] at hn
        refine .ite (fun _ => hj.sameResult_value.bind fun _ _ => .refl _) fun _ => ?_
        split
        · exact (hj.sameResult_text _).bind fun _ _ => .refl _
        · split
          · exact .refl _
          · have hargument := (below j (by omega) hwf .operand _ hj).1
            cases hj with
            | same => exact .refl _
            | array hitems =>
              rw [Json.array.sizeOf_spec] at hn
              exact (Operand.sameResult_ofJsonAll below (by omega) hwf hitems).bind fun _ _ =>
                .refl _
            | object _ _ _ => exact hargument.bind fun _ _ => .refl _
      · exact .error _ _

/-- A field has one member. Where that is an alias, the object is read as a field. -/
theorem Field.sameResult_ofMembers {role : Role} {members members' : List (String × Json)}
    (hn : sizeOf members ≤ n) (hwf : Json.MembersWellFormed members)
    (hrole : ∀ label j, members = [(label, j)] → isReserved label = false → role = .field)
    (h : Shuffled role members members') :
    SameResult (Field.ofMembers members) (Field.ofMembers members') := by
  refine h.sameResult_single Field.ofMembers (fun _ _ _ _ => nofun) ?_
  rintro label j j' rfl hj
  obtain ⟨hwf, -⟩ := hwf
  rw [List.cons.sizeOf_spec, Prod.mk.sizeOf_spec] at hn
  cases hlabel : isReserved label with
  | false =>
    obtain rfl := hrole label j rfl hlabel
    exact sameResult_definition below label (by omega) hwf hj
  | true =>
    unfold ofMembers
    refine .ite (fun _ => ?_) fun _ => .ite (fun _ => ?_) fun _ => ?_
    · exact (hj.sameResult_text _).bind fun _ _ => .refl _
    · exact hj.sameResult_value.bind fun _ _ => .refl _
    · rw [if_pos hlabel, if_pos hlabel]
      exact .refl _

/-! ## Queries -/

/-- What stands under a key of a query is read alike. -/
theorem Query.Entry.sameResult_ofMember (key : String) {j j' : Json} (hn : sizeOf j < n)
    (hwf : j.WellFormed) (h : Rearranged (Role.query.member key) j j') :
    SameResult (ofMember key j) (ofMember key j') := by
  have hread := below j hn hwf _ j' h
  unfold ofMember
  -- One goal for each key, in the order in which the keys are tried.
  repeat' refine .ite (fun hkey => ?_) fun hother => ?_
  · subst hkey
    exact (SameResult.map _ hread).map _
  · subst hkey
    exact (SameResult.map _ (hread _)).map _
  · subst hkey
    exact (SameResult.map _ (hread _)).map _
  · exact ((h.sameResult_text _).map _).map _
  · subst hkey
    cases h with
    | same => exact .refl _
    | array hitems =>
      rw [Json.array.sizeOf_spec] at hn
      exact (Join.sameResult_ofJsonAll below (by omega) hwf hitems).map _
    | object _ _ _ => exact SameResult.map _ hread
  iterate 2
    · subst hkey
      cases h with
      | same => exact .refl _
      | array _ => exact .error _ _
      | object _ _ _ => exact SameResult.map _ hread.1
  · subst hkey
    cases h with
    | same => exact .refl _
    | array hitems =>
      rw [Json.array.sizeOf_spec] at hn
      exact (Order.sameResult_ofJsonAll below (by omega) hwf hitems).map _
    | object _ _ _ => exact .error _ _
  · subst hkey
    cases h with
    | same => exact .refl _
    | array hitems =>
      rw [Json.array.sizeOf_spec] at hn
      exact (Field.sameResult_ofJsonAll below (by omega) hwf hitems).map _
    | object _ _ _ => exact SameResult.map _ hread
  · exact (h.sameResult_flag _).map _
  · exact (h.sameResult_flag _).map _
  · exact (h.sameResult_count _).map _
  · exact (h.sameResult_count _).map _
  · exact (h.sameResult_text _).map _
  · exact .refl _
  · exact .refl _

theorem Query.sameResult_ofMembers : ∀ {members members' : List (String × Json)} (q : Query),
    sizeOf members ≤ n → Json.MembersWellFormed members →
      RearrangedMembers .query members members' →
        SameResult (q.ofMembers members) (q.ofMembers members')
  | _, _, _, _, _, .nil _ => .refl _
  | (key, j) :: rest, _, q, hn, ⟨hj, hrest⟩, .cons h h' => by
    rw [List.cons.sizeOf_spec, Prod.mk.sizeOf_spec] at hn
    have hentry := Entry.sameResult_ofMember below key (by omega) hj h
    have hmember : ∀ j, SameResult (q.ofMember (key, j)) (Entry.ofMember key j >>= q.put) :=
      sameResult_ofMember q key
    rw [ofMembers_cons, ofMembers_cons]
    exact (((hmember _).trans (hentry.bind fun _ _ => .refl _)).trans (hmember _).symm).bind
      fun q _ => sameResult_ofMembers q (by omega) hrest h'

theorem Query.sameResult_of_shuffled {members members' : List (String × Json)}
    (hn : sizeOf members ≤ n) (hkeys : (members.map Prod.fst).Nodup)
    (hwf : Json.MembersWellFormed members) (h : Shuffled .query members members') (q : Query) :
    SameResult (q.ofMembers members) (q.ofMembers members') := by
  obtain ⟨inner, hinner, hperm, -⟩ := h
  exact (sameResult_ofMembers below q hn hwf hinner).trans
    (sameResult_of_perm hperm (hinner.keys_eq ▸ hkeys) q)

/-! ## Entities -/

theorem EntityParts.sameResult_ofMember (parts : EntityParts) (key : String) {j j' : Json}
    (hn : sizeOf j < n) (hwf : j.WellFormed) (h : Rearranged .field j j') :
    SameResult (parts.ofMember (key, j)) (parts.ofMember (key, j')) := by
  unfold ofMember
  refine .ite (fun _ => (h.sameResult_text _).map _) fun _ => .ite (fun _ => .refl _) fun _ =>
    .ite (fun _ => .refl _) fun _ => ?_
  refine SameResult.map _ ?_
  have hread := below j hn hwf .field j' h
  cases h with
  | same => exact .refl _
  | array hitems =>
    rw [Json.array.sizeOf_spec] at hn
    exact Field.sameResult_ofJsonAll below (by omega) hwf hitems
  | object _ _ _ => exact SameResult.map _ hread

theorem Entity.sameResult_ofMembers : ∀ {members members' : List (String × Json)}
    (parts : EntityParts), sizeOf members ≤ n → Json.MembersWellFormed members →
      RearrangedMembers .entity members members' →
        SameResult (ofMembers parts members) (ofMembers parts members')
  | _, _, _, _, _, .nil _ => .refl _
  | (key, j) :: rest, _, parts, hn, ⟨hj, hrest⟩, .cons h h' => by
    rw [List.cons.sizeOf_spec, Prod.mk.sizeOf_spec] at hn
    rw [ofMembers_cons, ofMembers_cons]
    exact (EntityParts.sameResult_ofMember below parts key (by omega) hj h).bind fun parts _ =>
      sameResult_ofMembers parts (by omega) hrest h'

theorem Entity.sameResult_of_shuffled {members members' : List (String × Json)}
    (hn : sizeOf members ≤ n) (hkeys : (members.map Prod.fst).Nodup)
    (hwf : Json.MembersWellFormed members) (h : Shuffled .entity members members') :
    SameResult (ofMembers {} members) (ofMembers {} members') := by
  obtain ⟨inner, hinner, hperm, -⟩ := h
  exact (sameResult_ofMembers below {} hn hwf hinner).trans
    (sameResult_of_perm hperm (hinner.keys_eq ▸ hkeys) {})

/-! ## Joins -/

/-- The parts of a join are the same ones, and are read alike. -/
theorem JoinParts.alike_ofMembers : ∀ {members members' : List (String × Json)},
    sizeOf members ≤ n → Json.MembersWellFormed members → RearrangedMembers .join members members' →
      Option.Rel SameResult (ofMembers members).target (ofMembers members').target ∧
        Option.Rel SameResult (ofMembers members).condition (ofMembers members').condition ∧
          Option.Rel SameResult (ofMembers members).label (ofMembers members').label
  | _, _, _, _, .nil _ => ⟨.none, .none, .none⟩
  | (key, j) :: rest, _, hn, ⟨hj, hrest⟩, .cons h h' => by
    rw [List.cons.sizeOf_spec, Prod.mk.sizeOf_spec] at hn
    obtain ⟨htarget, hcondition, hlabel⟩ := alike_ofMembers (by omega) hrest h'
    have hread := below j (by omega) hj _ _ h
    rw [ofMembers, ofMembers]
    split_ifs with hentity hwith has
    · subst hentity
      exact ⟨.some hread, hcondition, hlabel⟩
    · subst hwith
      exact ⟨htarget, .some hread.2, hlabel⟩
    · exact ⟨htarget, hcondition, .some (h.sameResult_text _)⟩
    · exact ⟨htarget, hcondition, hlabel⟩

theorem JoinParts.sameResult_of_shuffled {members members' : List (String × Json)}
    (hn : sizeOf members ≤ n) (hkeys : (members.map Prod.fst).Nodup)
    (hwf : Json.MembersWellFormed members) (h : Shuffled .join members members') :
    SameResult (ofMembers members).join (ofMembers members').join := by
  obtain ⟨inner, hinner, hperm, -⟩ := h
  obtain ⟨htarget, hcondition, hlabel⟩ := alike_ofMembers below hn hwf hinner
  rw [← ofMembers_eq_of_perm hperm (hinner.keys_eq ▸ hkeys)]
  exact sameResult_join htarget hcondition hlabel

/-! ## Operands -/

theorem Operand.sameResult_ofObject {members members' : List (String × Json)}
    (hn : sizeOf members ≤ n) (hkeys : (members.map Prod.fst).Nodup)
    (hwf : Json.MembersWellFormed members)
    (h : Shuffled (Role.ofOperand members) members members') :
    SameResult
      (ofObject members (fun _ => Field.ofMembers members) fun _ => Query.ofMembers ∅ members)
      (ofObject members' (fun _ => Field.ofMembers members')
        fun _ => Query.ofMembers ∅ members') := by
  have hfield : (∀ label j, members = [(label, j)] → isReserved label = false →
      Role.ofOperand members = .field) → SameResult
        (Field.ofMembers members >>= fun f => pure (Operand.field f))
        (Field.ofMembers members' >>= fun f => pure (Operand.field f)) := fun hrole =>
    (Field.sameResult_ofMembers below hn hwf hrole h).bind fun _ _ => .refl _
  unfold ofObject
  simp only [← h.hasKey_eq, ← h.definesField_eq]
  refine .ite (fun _ => ?_) fun _ => .ite (fun hname => ?_) fun _ =>
    .ite (fun hstatement => ?_) fun hnone => .ite (fun hdefines => ?_) fun _ => .error _ _
  · exact h.sameResult_value.bind fun _ _ => .refl _
  · refine hfield ?_
    rintro label j rfl hlabel
    rw [Json.hasKey_single, Json.hasKey_single, Bool.or_eq_true, beq_iff_eq, beq_iff_eq] at hname
    rcases hname with rfl | rfl
    · exact absurd hlabel (by decide)
    · exact absurd hlabel (by decide)
  · rw [Role.ofOperand_eq_query hstatement] at h
    exact (Query.sameResult_of_shuffled below hn hkeys hwf h ∅).bind fun _ _ => .refl _
  · refine hfield fun _ _ _ _ => ?_
    rw [Role.ofOperand, Json.namesTests_eq_false_of_definesField hdefines, if_neg hnone]
    rfl

theorem Operand.sameResult_ofJson {j j' : Json} (hn : sizeOf j ≤ n) (hwf : j.WellFormed)
    (h : Rearranged .operand j j') : SameResult (ofJson j) (ofJson j') := by
  cases h with
  | same => exact .refl _
  | array hitems =>
    rw [Json.array.sizeOf_spec] at hn
    rw [ofJson, ofJson]
    exact (sameResult_ofJsonAll below (by omega) hwf hitems).bind fun _ _ => .refl _
  | object hinner hperm hordered =>
    rw [Json.object.sizeOf_spec] at hn
    rw [ofJson, ofJson]
    exact sameResult_ofObject below (by omega) hwf.1 hwf.2 ⟨_, hinner, hperm, hordered⟩

theorem Test.sameResult_ofLast {j j' : Json} (hn : sizeOf j ≤ n) (hwf : j.WellFormed)
    (h : Rearranged .operand j j') : SameResult (ofLast j) (ofLast j') := by
  cases h with
  | same => exact .refl _
  | array hitems =>
    rw [Json.array.sizeOf_spec] at hn
    rw [ofLast, ofLast]
    exact (Operand.sameResult_ofJsonAll below (by omega) hwf hitems).bind fun _ _ => .refl _
  | @object _ members _ members' hinner hperm hordered =>
    rw [Json.object.sizeOf_spec] at hn
    have h : Shuffled (Role.ofOperand members) members members' :=
      ⟨_, hinner, hperm, hordered⟩
    rw [ofLast, ofLast, ← h.namesTests_eq]
    refine .ite (fun htests => ?_) fun _ => ?_
    · rw [Role.ofOperand, if_pos htests] at h
      exact sameResult_ofMembers below (by omega) hwf.2 (h.members_of_isOrdered rfl)
    · exact (Operand.sameResult_ofObject below (by omega) hwf.1 hwf.2 h).bind fun _ _ => .refl _

/-! ## Filters -/

theorem Filter.sameResult_ofFunction (field : String) {members members' : List (String × Json)}
    (hn : sizeOf members ≤ n) (hwf : Json.MembersWellFormed members)
    (h : Shuffled .call members members') :
    SameResult (ofFunction field members) (ofFunction field members') := by
  refine h.sameResult_single (ofFunction field) (fun _ _ _ _ => nofun) ?_
  rintro key j j' rfl hj
  obtain ⟨hwf, -⟩ := hwf
  rw [List.cons.sizeOf_spec, Prod.mk.sizeOf_spec] at hn
  have hlast := (below j (by omega) hwf .operand j' hj).2
  simp only [ofFunction]
  cases functionName? key with
  | none => exact .refl _
  | some name =>
    cases hj with
    | same => exact .refl _
    | array hitems =>
      rw [Json.array.sizeOf_spec] at hn
      exact (sameResult_ofCall below (by omega) hwf hitems).map _
    | object _ _ _ => exact hlast.map _

theorem Filter.sameResult_ofField (field : String) {j j' : Json} (hn : sizeOf j ≤ n)
    (hwf : j.WellFormed) (h : Rearranged .comparison j j') :
    SameResult (ofField field j) (ofField field j') := by
  cases h with
  | same => exact .refl _
  | array hitems =>
    rw [Json.array.sizeOf_spec] at hn
    rw [ofField, ofField]
    exact (Operand.sameResult_ofJsonAll below (by omega) hwf hitems).bind fun _ _ => .refl _
  | @object _ members _ members' hinner hperm hordered =>
    rw [Json.object.sizeOf_spec] at hn
    have h : Shuffled (Role.comparison.resolve members) members members' :=
      ⟨_, hinner, hperm, hordered⟩
    rw [Role.resolve] at h
    rw [ofField_object, ofField_object, ← h.namesTests_eq, ← h.namesOperand_eq, ← h.isEmpty_eq]
    refine .ite (fun _ => .refl _) fun _ => .ite (fun htests => ?_) fun htests =>
      .ite (fun hoperand => ?_) fun hoperand => ?_
    · rw [htests, Bool.true_or, if_pos rfl, Role.ofOperand, if_pos htests] at h
      exact (Test.sameResult_ofMembers below (by omega) hwf.2 (h.members_of_isOrdered rfl)).bind
        fun _ _ => .refl _
    · rw [hoperand, Bool.or_true, if_pos rfl] at h
      exact (Operand.sameResult_ofObject below (by omega) hwf.1 hwf.2 h).bind fun _ _ => .refl _
    · rw [if_neg (by rw [Bool.or_eq_true, not_or]; exact ⟨htests, hoperand⟩)] at h
      exact sameResult_ofFunction below field (by omega) hwf.2 h

theorem Filter.sameResult_ofMembers {members members' : List (String × Json)}
    (hn : sizeOf members ≤ n) (hwf : Json.MembersWellFormed members)
    (h : Shuffled .filter members members') :
    SameResult (ofMembers members) (ofMembers members') := by
  refine h.sameResult_single ofMembers (fun _ _ _ _ => nofun) ?_
  rintro key j j' rfl hj
  obtain ⟨hwf, -⟩ := hwf
  rw [List.cons.sizeOf_spec, Prod.mk.sizeOf_spec] at hn
  have hread := below j (by omega) hwf _ j' hj
  rw [Role.member] at hj hread
  unfold ofMembers
  cases hkey : Connective.ofKey? key with
  | some connective =>
    rw [hkey] at hj
    cases hj with
    | same => exact .refl _
    | array hitems =>
      rw [Json.array.sizeOf_spec] at hn
      exact (sameResult_ofJsonAll below (by omega) hwf hitems).bind fun _ _ => .refl _
    | object _ _ _ => exact .error _ _
  | none =>
    rw [hkey] at hread
    exact .ite (fun _ => .refl _) fun _ => hread key

theorem Filter.sameResult_ofJson {j j' : Json} (hn : sizeOf j ≤ n) (hwf : j.WellFormed)
    (h : Rearranged .filter j j') : SameResult (ofJson j) (ofJson j') := by
  refine h.sameResult_object (fun _ _ => nofun) fun members members' hj hmembers => ?_
  subst hj
  rw [Json.object.sizeOf_spec] at hn
  rw [ofJson, ofJson]
  exact sameResult_ofMembers below (by omega) hwf.2 hmembers

theorem JoinCondition.sameResult_ofJson {j j' : Json} (hn : sizeOf j ≤ n) (hwf : j.WellFormed)
    (h : Rearranged .filter j j') : SameResult (ofJson j) (ofJson j') := by
  cases h with
  | same => exact .refl _
  | array hitems =>
    rw [ofJson, ofJson]
    exact (hitems.sameResult_mapM fun _ _ hj => hj.sameResult_side).bind fun _ _ => .refl _
  | object hinner hperm hordered =>
    rw [Json.object.sizeOf_spec] at hn
    rw [ofJson, ofJson]
    exact (Filter.sameResult_ofMembers below (by omega) hwf.2 ⟨_, hinner, hperm, hordered⟩).bind
      fun _ _ => .refl _

/-! ## Objects -/

theorem Query.sameResult_ofObject {j j' : Json} (hn : sizeOf j ≤ n) (hwf : j.WellFormed)
    (h : Rearranged .query j j') : SameResult (ofJson j) (ofJson j') := by
  refine h.sameResult_object (fun _ _ => nofun) fun members members' hj hmembers => ?_
  subst hj
  rw [Json.object.sizeOf_spec] at hn
  exact sameResult_of_shuffled below (by omega) hwf.1 hwf.2 hmembers ∅

theorem Field.sameResult_ofJson {j j' : Json} (hn : sizeOf j ≤ n) (hwf : j.WellFormed)
    (h : Rearranged .field j j') : SameResult (ofJson j) (ofJson j') := by
  refine h.sameResult_object (fun _ _ => nofun) fun members members' hj hmembers => ?_
  subst hj
  rw [Json.object.sizeOf_spec] at hn
  rw [ofJson, ofJson]
  exact sameResult_ofMembers below (by omega) hwf.2 (fun _ _ _ _ => rfl) hmembers

theorem Entity.sameResult_ofJson {j j' : Json} (hn : sizeOf j ≤ n) (hwf : j.WellFormed)
    (h : Rearranged .entity j j') : SameResult (ofJson j) (ofJson j') := by
  refine h.sameResult_object (fun _ _ => nofun) fun members members' hj hmembers => ?_
  subst hj
  rw [Json.object.sizeOf_spec] at hn
  rw [ofJson, ofJson]
  exact sameResult_of_shuffled below (by omega) hwf.1 hwf.2 hmembers

theorem JoinTarget.sameResult_ofJson {j j' : Json} (hn : sizeOf j ≤ n) (hwf : j.WellFormed)
    (h : Rearranged .target j j') : SameResult (ofJson j) (ofJson j') := by
  refine h.sameResult_object (fun _ _ => nofun) fun members members' hj hmembers => ?_
  subst hj
  rw [Json.object.sizeOf_spec] at hn
  rw [ofJson, ofJson, ← hmembers.hasKey_eq]
  rw [Role.resolve] at hmembers
  refine .ite (fun hselect => ?_) fun hselect => ?_
  · rw [if_pos hselect] at hmembers
    exact (Query.sameResult_of_shuffled below (by omega) hwf.1 hwf.2 hmembers ∅).bind
      fun _ _ => .refl _
  · rw [if_neg hselect] at hmembers
    exact (Entity.sameResult_of_shuffled below (by omega) hwf.1 hwf.2 hmembers).bind
      fun _ _ => .refl _

theorem Assignment.sameResult_ofJson (what : String) {j j' : Json} (hn : sizeOf j ≤ n)
    (hwf : j.WellFormed) (h : Rearranged .table j j') :
    SameResult (ofJson what j) (ofJson what j') := by
  refine h.sameResult_object (fun _ _ => nofun) fun members members' hj hmembers => ?_
  refine hmembers.sameResult_single (fun members => ofJson what (.object members)) ?_ ?_
  · rintro ⟨_, _⟩ _ _ _ hread
    rw [ofJson] at hread
    · cases hread
    all_goals nofun
  · rintro entity value value' rfl hvalue
    subst hj
    obtain ⟨-, hwf, -⟩ := hwf
    simp only [Json.object.sizeOf_spec, List.cons.sizeOf_spec, Prod.mk.sizeOf_spec] at hn
    cases hvalue with
    | same => exact .refl _
    | array _ => exact .error _ _
    | object hinner _ hordered =>
      obtain rfl := hordered rfl
      rw [Json.object.sizeOf_spec] at hn
      rw [ofJson, ofJson]
      exact (sameResult_ofMembers below (by omega) hwf.2 hinner).bind fun _ _ => .refl _

theorem Order.sameResult_ofJson {j j' : Json} (hn : sizeOf j ≤ n) (hwf : j.WellFormed)
    (h : Rearranged .order j j') : SameResult (ofJson j) (ofJson j') := by
  refine h.sameResult_object (fun _ _ => nofun) fun members members' hj hmembers => ?_
  refine hmembers.sameResult_single (fun members => ofJson (.object members))
    (fun _ _ _ _ => nofun) ?_
  rintro key value value' rfl hvalue
  subst hj
  obtain ⟨-, hwf, -⟩ := hwf
  simp only [Json.object.sizeOf_spec, List.cons.sizeOf_spec, Prod.mk.sizeOf_spec] at hn
  have hone := below value (by omega) hwf .field value' hvalue
  unfold ofJson
  split
  · exact .refl _
  · cases hvalue with
    | same => exact .refl _
    | array hitems =>
      rw [Json.array.sizeOf_spec] at hn
      exact (Field.sameResult_ofJsonAll below (by omega) hwf hitems).bind fun _ _ => .refl _
    | object _ _ _ => exact SameResult.bind hone fun _ _ => .refl _

theorem Join.sameResult_ofJson {j j' : Json} (hn : sizeOf j ≤ n) (hwf : j.WellFormed)
    (h : Rearranged .join j j') : SameResult (ofJson j) (ofJson j') := by
  refine h.sameResult_object (fun _ _ => nofun) fun members members' hj hmembers => ?_
  subst hj
  rw [Json.object.sizeOf_spec] at hn
  have hunknown : unknownJoinKey? members = none ↔ unknownJoinKey? members' = none := by
    rw [unknownJoinKey?_eq_none, unknownJoinKey?_eq_none]
    exact forall_congr' fun key => imp_congr_left hmembers.keys_perm.mem_iff
  rw [ofJson, ofJson]
  rcases hkey : unknownJoinKey? members with _ | key
  · rw [hunknown.mp hkey]
    exact JoinParts.sameResult_of_shuffled below (by omega) hwf.1 hwf.2 hmembers
  · rcases hkey' : unknownJoinKey? members' with _ | key'
    · rw [hunknown.mpr hkey'] at hkey
      cases hkey
    · exact .error _ _

end Below

theorem Json.alike (j : Json) (hwf : j.WellFormed) :
    ∀ role j', Rearranged role j j' → role.Alike j j' := by
  have below : Json.AlikeBelow (sizeOf j) := fun j' _ hwf' => Json.alike j' hwf'
  intro role j' h
  cases role with
  | query => exact Query.sameResult_ofObject below le_rfl hwf h
  | entity => exact Entity.sameResult_ofJson below le_rfl hwf h
  | table => exact fun what => Assignment.sameResult_ofJson below what le_rfl hwf h
  | join => exact Join.sameResult_ofJson below le_rfl hwf h
  | target => exact JoinTarget.sameResult_ofJson below le_rfl hwf h
  | filter =>
    exact ⟨Filter.sameResult_ofJson below le_rfl hwf h,
      JoinCondition.sameResult_ofJson below le_rfl hwf h⟩
  | comparison => exact fun field => Filter.sameResult_ofField below field le_rfl hwf h
  | operand =>
    exact ⟨Operand.sameResult_ofJson below le_rfl hwf h, Test.sameResult_ofLast below le_rfl hwf h⟩
  | field => exact Field.sameResult_ofJson below le_rfl hwf h
  | order => exact Order.sameResult_ofJson below le_rfl hwf h
  | values => trivial
  | call => trivial
  | tests => trivial
  | definition => trivial
termination_by sizeOf j

/-- Documents that differ in the order of keys are both refused, or both give one query, and so one
document and one fingerprint. -/
theorem Query.ofJson_rearranged {j j' : Json} (hwf : j.WellFormed) (h : Rearranged .query j j')
    (q : Query) : ofJson j = .ok q ↔ ofJson j' = .ok q :=
  j.alike hwf .query j' h q

/-- The open states. -/
def openStates : Json :=
  .object [("$select", .string "states"), ("$where", .object [("open", .bool true)])]

/-- The open states, with the keys turned round. -/
def openStatesTurned : Json :=
  .object [("$where", .object [("open", .bool true)]), ("$select", .string "states")]

/-- The items of the orders in open states. -/
def openItems : Json :=
  .object [("$select", .string "orders"),
    ("$where", .object [("state", .object [("$in", openStates)])]),
    ("$expand", .object [("$entity", .object [("items", .null), ("$as", .string "i")]),
      ("$with", .object [("order", .integer 1)])])]

/-- The same with the keys of both queries, of the join and of the joined table turned round. -/
def openItemsTurned : Json :=
  .object [("$expand", .object [("$with", .object [("order", .integer 1)]),
      ("$entity", .object [("$as", .string "i"), ("items", .null)])]),
    ("$where", .object [("state", .object [("$in", openStatesTurned)])]),
    ("$select", .string "orders")]

/-- The query for open states. -/
def openStatesQuery : Query :=
  { statement := some (.select "states" [])
    filter := some (.compare "open" ⟨.eq, .value (.bool true)⟩)
    staged := {} }

/-- The query that both documents of the items stand for. -/
def openItemsQuery : Query :=
  { statement := some (.select "orders" [])
    joins := [⟨.entity ⟨"items", [], some "i"⟩,
      .filter (.compare "order" ⟨.eq, .value (.integer 1)⟩), none⟩]
    filter := some (.compare "state" ⟨.isIn, .query openStatesQuery⟩)
    staged := {} }

theorem Query.ofJson_openItemsTurned : openItems.WellFormed ∧
    Rearranged .query openItems openItemsTurned ∧
      ofJson openItems = .ok openItemsQuery ∧ ofJson openItemsTurned = .ok openItemsQuery := by
  have hwf : openItems.WellFormed := by
    simp [openItems, openStates, Json.WellFormed, Json.MembersWellFormed]
  have htable : Rearranged .target (.object [("items", .null), ("$as", .string "i")])
      (.object [("$as", .string "i"), ("items", .null)]) :=
    .object (.cons (.same _ _) (.cons (.same _ _) (.nil _))) (.swap _ _ _) nofun
  have hstates : Rearranged .operand openStates openStatesTurned :=
    .object (.cons (.same _ _) (.cons (.same _ _) (.nil _))) (.swap _ _ _) nofun
  have htests : Rearranged .comparison (.object [("$in", openStates)])
      (.object [("$in", openStatesTurned)]) :=
    .object (.cons hstates (.nil _)) (.refl _) fun _ => rfl
  have h : Rearranged .query openItems openItemsTurned :=
    .object (.cons (.same _ _)
      (.cons (.object (.cons htests (.nil _)) (.refl _) fun _ => rfl)
        (.cons (.object (.cons htable (.cons (.same _ _) (.nil _))) (.swap _ _ _) nofun) (.nil _))))
      (List.reverse_perm _).symm nofun
  have hitems : Query.ofJson openItems = .ok openItemsQuery := rfl
  exact ⟨hwf, h, hitems, (ofJson_rearranged hwf h _).mp hitems⟩

end QueryCompiler
