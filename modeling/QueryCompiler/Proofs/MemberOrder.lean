import QueryCompiler.Proofs.QueryEntries

/-!
# The order of an object's members

The members of a query, of an entity and of a join are read one after the other, and a reading stops
at the first fault. Still the result is one for every order (`Query.sameResult_of_perm`,
`Entity.sameResult_of_perm`, `JoinParts.ofMembers_eq_of_perm`), as members with different keys are
read to the same effect in either order: a second statement and a second table are refused
whichever comes first.
-/

namespace QueryCompiler

variable {members members' : List (String × Json)}

/-! ## Queries -/

/-- Two members of a query are read in either order. -/
theorem Query.sameResult_ofMember_comm {a b : String × Json} (h : a.1 ≠ b.1) (q : Query) :
    SameResult (q.ofMember a >>= fun q => q.ofMember b)
      (q.ofMember b >>= fun q => q.ofMember a) := by
  have hread : ∀ a b : String × Json, SameResult (q.ofMember a >>= fun q => q.ofMember b)
      ((Entry.ofMember a.1 a.2 >>= q.put) >>= fun q => Entry.ofMember b.1 b.2 >>= q.put) :=
    fun a b => (sameResult_ofMember q a.1 a.2).bind fun q _ => sameResult_ofMember q b.1 b.2
  refine (hread a b).trans (SameResult.trans ?_ (hread b a).symm)
  have hkeya := Entry.key_ofMember a.1 a.2
  have hkeyb := Entry.key_ofMember b.1 b.2
  rcases hx : Entry.ofMember a.1 a.2 with e | x
  · refine .of_ne_ok (fun _ => nofun) fun _ hq => ?_
    obtain ⟨_, -, hq⟩ := exists_of_bind_eq_ok hq
    cases hq
  · rcases hy : Entry.ofMember b.1 b.2 with e | y
    · refine .of_ne_ok (fun _ hq => ?_) fun _ => nofun
      obtain ⟨_, -, hq⟩ := exists_of_bind_eq_ok hq
      cases hq
    · refine put_comm ?_ q
      rwa [hkeya x hx, hkeyb y hy]

theorem Query.sameResult_of_perm (h : members.Perm members')
    (hkeys : (members.map Prod.fst).Nodup) (q : Query) :
    SameResult (q.ofMembers members) (q.ofMembers members') :=
  SameResult.of_perm ofMembers_cons (fun q _ _ hne => sameResult_ofMember_comm hne q) h hkeys q

/-! ## Entities -/

/-- The fields that stand under a table's name. -/
def Entity.fieldsOf : Json → Except QueryError (List Field)
  | .null => .ok []
  | .array items => Field.ofJsonAll items
  | other => ([·]) <$> Field.ofJson other

/-- The parts of an entity with what one more member says. -/
def EntityParts.ofMember (parts : EntityParts) (m : String × Json) :
    Except QueryError EntityParts :=
  if m.1 = "$as" then (fun label => { parts with label := some label }) <$> m.2.text "$as"
  else if isReserved m.1 then .error (.unknownOperator m.1)
  else if parts.table.isSome then .error .notOneTable
  else (fun fields => { parts with table := some (m.1, fields) }) <$> Entity.fieldsOf m.2

theorem Entity.ofMembers_cons (parts : EntityParts) (m : String × Json)
    (rest : List (String × Json)) :
    ofMembers parts (m :: rest) = parts.ofMember m >>= fun parts => ofMembers parts rest := by
  rcases m with ⟨key, value⟩
  rw [ofMembers, EntityParts.ofMember]
  split_ifs
  · rw [bind_map_left]
  · rfl
  · rfl
  · rw [bind_map_left]
    cases value with
    | null => rfl
    | array _ => rfl
    | string name => rfl
    | object members =>
      show _ = ([·]) <$> Field.ofJson (.object members) >>= _
      rw [bind_map_left]
      rfl
    | _ => rfl

section OneMember

variable {parts : EntityParts} {a b : String × Json}

theorem EntityParts.isSome_table_ofMember (ha : a.1 ≠ "$as") :
    Ensures (parts.ofMember a) fun parts => parts.table.isSome = true := by
  rw [ofMember, if_neg ha]
  refine Ensures.ite (fun _ => Ensures.error _) fun _ => Ensures.ite (fun _ => Ensures.error _)
    fun _ => ?_
  exact (Ensures.trivial _).map fun _ _ => rfl

/-- A second table is refused. -/
theorem EntityParts.ofMember_ne_ok (ha : a.1 ≠ "$as") (htable : parts.table.isSome = true)
    (parts' : EntityParts) : parts.ofMember a ≠ .ok parts' := by
  rw [ofMember, if_neg ha, if_pos htable]
  split_ifs
  · nofun
  · nofun

theorem EntityParts.sameResult_label_comm (ha : a.1 = "$as") (hb : b.1 ≠ "$as") :
    SameResult (parts.ofMember a >>= fun parts => parts.ofMember b)
      (parts.ofMember b >>= fun parts => parts.ofMember a) := by
  have hlabel : ∀ parts : EntityParts, parts.ofMember a =
      (fun label => { parts with label := some label }) <$> a.2.text "$as" := fun _ => if_pos ha
  simp only [hlabel]
  rcases a.2.text "$as" with e | label
  · refine .of_ne_ok (fun _ => nofun) fun _ h => ?_
    obtain ⟨_, -, h⟩ := exists_of_bind_eq_ok h
    cases h
  · show SameResult (ofMember { parts with label := some label } b) _
    rw [ofMember, ofMember, if_neg hb, if_neg hb]
    split_ifs
    · exact .error _ _
    · exact .error _ _
    · rcases Entity.fieldsOf b.2 with e | fields
      · exact .error _ _
      · exact .refl _

/-- Two members of an entity are read in either order. -/
theorem EntityParts.sameResult_ofMember_comm (h : a.1 ≠ b.1) :
    SameResult (parts.ofMember a >>= fun parts => parts.ofMember b)
      (parts.ofMember b >>= fun parts => parts.ofMember a) := by
  by_cases ha : a.1 = "$as"
  · exact sameResult_label_comm ha fun hb => h (ha.trans hb.symm)
  · by_cases hb : b.1 = "$as"
    · exact (sameResult_label_comm hb ha).symm
    · have htwice : ∀ {a b : String × Json}, a.1 ≠ "$as" → b.1 ≠ "$as" →
          ∀ x, parts.ofMember a >>= (fun parts => parts.ofMember b) ≠ .ok x := fun ha hb x hx => by
        obtain ⟨parts', hfirst, hsecond⟩ := exists_of_bind_eq_ok hx
        exact ofMember_ne_ok hb (isSome_table_ofMember ha parts' hfirst) x hsecond
      exact .of_ne_ok (htwice ha hb) (htwice hb ha)

end OneMember

theorem Entity.sameResult_of_perm (h : members.Perm members')
    (hkeys : (members.map Prod.fst).Nodup) (parts : EntityParts) :
    SameResult (ofMembers parts members) (ofMembers parts members') :=
  SameResult.of_perm ofMembers_cons (fun _ _ _ hne => EntityParts.sameResult_ofMember_comm hne) h
    hkeys parts

/-! ## Joins -/

theorem unknownJoinKey?_eq_none {members : List (String × Json)} :
    unknownJoinKey? members = none ↔
      ∀ key ∈ members.map Prod.fst, key ∈ ["$entity", "$with", "$as"] := by
  simp only [unknownJoinKey?, Option.map_eq_none_iff, List.find?_eq_none, decide_eq_true_eq,
    not_not, List.forall_mem_map]

/-- What the members of a join say does not depend on their order. -/
theorem JoinParts.ofMembers_eq_of_perm (h : members.Perm members') :
    (members.map Prod.fst).Nodup → ofMembers members = ofMembers members' := by
  induction h with
  | nil => exact fun _ => rfl
  | cons m _ ih =>
    intro hkeys
    rcases m with ⟨key, value⟩
    rw [List.map_cons, List.nodup_cons] at hkeys
    rw [ofMembers, ofMembers, ih hkeys.2]
  | swap a b rest =>
    intro hkeys
    rcases a with ⟨key, value⟩
    rcases b with ⟨key', value'⟩
    simp only [List.map_cons, List.nodup_cons, List.mem_cons, not_or] at hkeys
    have hne : key' ≠ key := hkeys.1.1
    simp only [ofMembers]
    split_ifs
    all_goals first
      | rfl
      | (subst_vars; exact absurd rfl hne)
  | trans hfirst _ ih ih' =>
    intro hkeys
    exact (ih hkeys).trans (ih' ((hfirst.map Prod.fst).nodup_iff.mp hkeys))

theorem JoinParts.sameResult_join {parts parts' : JoinParts}
    (htarget : Option.Rel SameResult parts.target parts'.target)
    (hcondition : Option.Rel SameResult parts.condition parts'.condition)
    (hlabel : Option.Rel SameResult parts.label parts'.label) :
    SameResult parts.join parts'.join := by
  rcases parts with ⟨target, condition, label⟩
  rcases parts' with ⟨target', condition', label'⟩
  rcases htarget with htarget | _
  swap
  · exact .error _ _
  refine SameResult.bind htarget fun target _ => ?_
  rcases hcondition with @⟨condition, condition', hcondition⟩ | _
  swap
  · exact .error _ _
  have hput : ∀ label : Option String,
      SameResult (condition >>= fun c => .ok (Join.mk target c label))
        (condition' >>= fun c => .ok (Join.mk target c label)) := fun _ =>
    hcondition.bind fun _ _ => .refl _
  rcases hlabel with @⟨label, label', hlabel⟩ | _
  · show SameResult (some <$> label >>= fun label => _) (some <$> label' >>= fun label => _)
    exact (hlabel.map some).bind fun label _ => hput label
  · exact hput none

end QueryCompiler
