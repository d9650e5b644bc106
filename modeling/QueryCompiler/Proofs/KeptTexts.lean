import QueryCompiler.Proofs.Decoded
import QueryCompiler.Proofs.DocumentWords
import QueryCompiler.Proofs.MemberOrder

/-!
# Texts that reading keeps

Every string of a document that is read stands among the words of the document that is written for
what was read (`Query.texts_kept`). What is lost is the label of a table that is selected from: it
is read with the table, as for a table that is joined, and a selection has no place for it
(`Query.not_texts_kept_labelledOrders`).

There is one theorem for each function that reads, by recursion on the document, as for what reading
gives.
-/

namespace QueryCompiler

open Json (hasKey namesTests namesOperand single KeptIn wordsAll)

/-! ## What members say in the end -/

/-- What each member of an entity says is so in the end. -/
theorem Entity.says_ofMembers : ∀ {members : List (String × Json)} {parts : EntityParts},
    (members.map Prod.fst).Nodup → Ensures (ofMembers parts members) fun e =>
      ((∀ table, parts.table = some table → (e.name, e.fields) = table) ∧
        ("$as" ∉ members.map Prod.fst → e.label = parts.label)) ∧
      ∀ m ∈ members, (m.1 = "$as" → ∃ label, m.2 = .string label ∧ e.label = some label) ∧
        (m.1 ≠ "$as" → m.1 = e.name ∧ fieldsOf m.2 = .ok e.fields)
  | [], parts, _ => by
    rw [ofMembers, EntityParts.entity]
    split
    · rename_i name fields htable
      refine Ensures.ok ⟨⟨fun table h => ?_, fun _ => rfl⟩, List.forall_mem_nil _⟩
      rw [htable] at h
      exact Option.some.inj h
    · exact Ensures.error _
  | (key, value) :: rest, parts, hkeys => by
    rw [List.map_cons, List.nodup_cons] at hkeys
    rw [ofMembers_cons, EntityParts.ofMember]
    by_cases hkey : key = "$as"
    · subst hkey
      rw [if_pos rfl]
      rcases value with _ | _ | _ | _ | label | _ | _
      case string =>
        intro e he
        obtain ⟨⟨htable, hlabel⟩, hrest⟩ := says_ofMembers hkeys.2 e he
        refine ⟨⟨htable, fun h => absurd List.mem_cons_self h⟩, fun m hm => ?_⟩
        rcases List.mem_cons.mp hm with rfl | hm
        · exact ⟨fun _ => ⟨label, rfl, hlabel hkeys.1⟩, fun h => absurd rfl h⟩
        · exact hrest m hm
      all_goals exact Ensures.error _
    · rw [if_neg hkey]
      split_ifs with hreserved htable
      · exact Ensures.error _
      · exact Ensures.error _
      · intro e he
        obtain ⟨parts', hparts, he⟩ := exists_of_bind_eq_ok he
        rw [map_eq_pure_bind] at hparts
        obtain ⟨fields, hfields, hparts⟩ := exists_of_bind_eq_ok hparts
        cases hparts
        obtain ⟨⟨htable', hlabel⟩, hrest⟩ := says_ofMembers hkeys.2 e he
        obtain ⟨rfl, rfl⟩ := Prod.mk.inj (htable' _ rfl)
        refine ⟨⟨fun table h => ?_, fun h => hlabel fun hmem => h (List.mem_cons_of_mem _ hmem)⟩,
          fun m hm => ?_⟩
        · rw [h] at htable
          exact absurd rfl htable
        · rcases List.mem_cons.mp hm with rfl | hm
          · exact ⟨fun h => absurd h hkey, fun _ => ⟨rfl, hfields⟩⟩
          · exact hrest m hm

/-- Each member of a join is read as the part that its key says. -/
theorem JoinParts.ofMembers_of_mem : ∀ {members : List (String × Json)},
    (members.map Prod.fst).Nodup → ∀ m ∈ members,
      (m.1 = "$entity" → (ofMembers members).target = some (JoinTarget.ofJson m.2)) ∧
        (m.1 = "$with" → (ofMembers members).condition = some (JoinCondition.ofJson m.2)) ∧
          (m.1 = "$as" → (ofMembers members).label = some (m.2.text "$as"))
  | (key, value) :: rest, hkeys, m, hm => by
    rw [List.map_cons, List.nodup_cons] at hkeys
    rw [ofMembers]
    rcases List.mem_cons.mp hm with rfl | hm
    · refine ⟨?_, ?_, ?_⟩
      all_goals
        rintro rfl
        rfl
    · have hmem : m.1 ∈ rest.map Prod.fst := List.mem_map_of_mem hm
      have hne : m.1 ≠ key := fun h => hkeys.1 (h ▸ hmem)
      obtain ⟨htarget, hcondition, hlabel⟩ := ofMembers_of_mem hkeys.2 m hm
      refine ⟨fun h => ?_, fun h => ?_, fun h => ?_⟩
      · rw [← htarget h]
        split_ifs with hkey
        · exact absurd (h.trans hkey.symm) hne
        all_goals rfl
      · rw [← hcondition h]
        split_ifs with _ hkey
        · rfl
        · exact absurd (h.trans hkey.symm) hne
        all_goals rfl
      · rw [← hlabel h]
        split_ifs with _ _ hkey
        · rfl
        · rfl
        · exact absurd (h.trans hkey.symm) hne
        · rfl

/-- The parts of a join are in the join that they make up. -/
theorem JoinParts.says_join (parts : JoinParts) : Ensures parts.join fun join =>
    (∀ r, parts.target = some r → r = .ok join.target) ∧
      (∀ r, parts.condition = some r → r = .ok join.condition) ∧
        ∀ r, parts.label = some r → ∃ label, r = .ok label ∧ join.label = some label := by
  rcases parts with ⟨_ | target, _ | condition, label⟩
  · exact Ensures.error _
  · exact Ensures.error _
  · exact (Ensures.trivial _).bind fun _ _ => Ensures.error _
  · rcases target with _ | target
    · exact Ensures.error _
    · rcases condition with _ | condition
      · rcases label with _ | (_ | label)
        all_goals exact Ensures.error _
      · rcases label with _ | (_ | label)
        · exact Ensures.ok ⟨by rintro r ⟨⟩; rfl, by rintro r ⟨⟩; rfl, nofun⟩
        · exact Ensures.error _
        · exact Ensures.ok ⟨by rintro r ⟨⟩; rfl, by rintro r ⟨⟩; rfl, by
            rintro r ⟨⟩
            exact ⟨label, rfl, rfl⟩⟩

/-! ## Literals -/

theorem Value.keeps_ofJson (j : Json) :
    Ensures (Value.ofJson j) fun v => j.KeptIn v.toJson.words := by
  unfold ofJson
  split
  · exact Ensures.ok (.of_texts_eq_nil rfl)
  · exact Ensures.ok (.of_texts_eq_nil rfl)
  · exact Ensures.ok (.of_texts_eq_nil rfl)
  · exact Ensures.ok (.of_texts_eq_nil rfl)
  · exact Ensures.ok (.string List.mem_cons_self)
  · rename_i date
    cases date with
    | string text =>
      refine (Ensures.trivial _).bind fun _ _ => ?_
      split
      · exact Ensures.ok (.of_texts_eq_nil rfl)
      · exact Ensures.error _
    | _ => exact Ensures.error _
  · exact Ensures.error _

theorem Json.keeps_text (what : String) (j : Json) :
    Ensures (j.text what) fun s => j.KeptIn (Json.string s).words := by
  cases j with
  | string s => exact Ensures.ok (.string List.mem_cons_self)
  | _ => exact Ensures.error _

/-- Flags have no texts. -/
theorem Json.keeps_flag (key : String) (j : Json) (ws : List String) :
    Ensures (j.flag key) fun _ => j.KeptIn ws := by
  cases j with
  | null | bool => exact Ensures.ok (.of_texts_eq_nil rfl)
  | _ => exact Ensures.error _

/-- Counts have no texts. -/
theorem Json.keeps_count (key : String) (j : Json) (ws : List String) :
    Ensures (j.count? key) fun _ => j.KeptIn ws := by
  cases j with
  | null | integer => exact fun _ _ => .of_texts_eq_nil rfl
  | _ => exact Ensures.error _

theorem JoinSide.keeps_ofJson (j : Json) :
    Ensures (JoinSide.ofJson j) fun side => j.KeptIn side.toJson.words := by
  unfold ofJson
  split
  · rename_i entity columns
    have hall : ∀ items : List Json, Ensures (items.mapM (Json.text "join field")) fun names =>
        ∀ j ∈ items, j.KeptIn (wordsAll (names.map .string)) := fun items =>
      Json.keptIn_readAll rfl (fun _ _ => List.mapM_cons) (fun _ _ => List.map_cons)
        fun j _ => Json.keeps_text _ j
    refine (hall columns.oneOrMany).bind fun names hnames => Ensures.ok (.single ?_)
    have hwords : wordsAll (names.map .string) ⊆ (toJson ⟨entity, names⟩).words :=
      Json.words_subset_single entity (.array (names.map .string))
    cases columns with
    | array items => exact (KeptIn.array hnames).mono hwords
    | _ => exact (hnames _ List.mem_cons_self).mono hwords
  · exact Ensures.error _
  · exact Ensures.error _

/-! ## Every part of a document -/

/-- Whatever a value is read as keeps the texts of the value. -/
structure Json.Keeps (j : Json) : Prop where
  operand : Ensures (Operand.ofJson j) fun x => j.KeptIn x.toJson.words
  field : Ensures (Field.ofJson j) fun f => j.KeptIn f.toJson.words
  last : Ensures (Test.ofLast j) fun tests =>
    (tests.map Test.op).Nodup → j.KeptIn (lastItem tests (Test.toMembers tests)).words
  filter : Ensures (Filter.ofJson j) fun f => j.KeptIn f.toJson.words
  condition : ∀ field, Ensures (Filter.ofField field j) fun f => j.KeptIn f.toJson.words
  entity : Ensures (Entity.ofJson j) fun e => j.KeptIn e.toJson.words
  selection : Ensures (Entity.ofJson j) fun e =>
    ∀ s ∈ j.texts, s ∈ (Statement.select e.name e.fields).toJson.words ∨
      s ∈ Json.ownLabels ("$select", j) ∨ s ∈ j.selectionLabels
  assignments : ∀ what, Ensures (Assignment.ofJson what j) fun table =>
    j.KeptIn (Statement.insert table.1 table.2).toJson.words
  target : Ensures (JoinTarget.ofJson j) fun target => j.KeptIn target.toJson.words
  joinCondition : Ensures (JoinCondition.ofJson j) fun condition => j.KeptIn condition.toJson.words
  join : Ensures (Join.ofJson j) fun join => j.KeptIn join.toJson.words
  order : Ensures (Order.ofJson j) fun order => j.KeptIn order.toJson.words

/-- All values of less than a given size keep their texts. -/
def Json.KeepBelow (n : ℕ) : Prop :=
  ∀ j : Json, sizeOf j < n → j.WellFormed → j.Keeps

section Below

variable {n : ℕ} (below : Json.KeepBelow n)

include below

/-! ## Lists -/

section Items

variable {items : List Json} (hn : sizeOf items ≤ n) (hwf : Json.AllWellFormed items)

include hn hwf

theorem Json.keeps_of_mem : ∀ j ∈ items, j.Keeps := fun j hj =>
  below j (wellFormed_of_mem hn hwf j hj).1 (wellFormed_of_mem hn hwf j hj).2

theorem Operand.keeps_ofJsonAll : Ensures (ofJsonAll items) fun xs =>
    ∀ j ∈ items, j.KeptIn (wordsAll (toJsonAll xs)) :=
  Json.keptIn_readAll rfl (fun _ _ => by rw [ofJsonAll]) (fun _ _ => rfl) fun j hj =>
    (Json.keeps_of_mem below hn hwf j hj).operand

theorem Field.keeps_ofJsonAll : Ensures (ofJsonAll items) fun fs =>
    ∀ j ∈ items, j.KeptIn (wordsAll (toJsonAll fs)) :=
  Json.keptIn_readAll rfl (fun _ _ => by rw [ofJsonAll]) (fun _ _ => rfl) fun j hj =>
    (Json.keeps_of_mem below hn hwf j hj).field

theorem Filter.keeps_ofJsonAll : Ensures (ofJsonAll items) fun fs =>
    ∀ j ∈ items, j.KeptIn (wordsAll (toJsonAll fs)) :=
  Json.keptIn_readAll rfl (fun _ _ => by rw [ofJsonAll]) (fun _ _ => rfl) fun j hj =>
    (Json.keeps_of_mem below hn hwf j hj).filter

theorem Join.keeps_ofJsonAll : Ensures (ofJsonAll items) fun js =>
    ∀ j ∈ items, j.KeptIn (wordsAll (toJsonAll js)) :=
  Json.keptIn_readAll rfl (fun _ _ => by rw [ofJsonAll]) (fun _ _ => rfl) fun j hj =>
    (Json.keeps_of_mem below hn hwf j hj).join

theorem Order.keeps_ofJsonAll : Ensures (ofJsonAll items) fun os =>
    ∀ j ∈ items, j.KeptIn (wordsAll (toJsonAll os)) :=
  Json.keptIn_readAll rfl (fun _ _ => by rw [ofJsonAll]) (fun _ _ => rfl) fun j hj =>
    (Json.keeps_of_mem below hn hwf j hj).order

end Items

/-- The items of a call are kept among its arguments and its last item. -/
theorem Filter.keeps_ofCall : ∀ {items : List Json}, sizeOf items ≤ n → Json.AllWellFormed items →
    Ensures (ofCall items) fun call => ∀ j ∈ items, j.KeptIn
      (wordsAll (Operand.toJsonAll call.1 ++ [lastItem call.2 (Test.toMembers call.2)]))
  | [], _, _ => Ensures.ok (List.forall_mem_nil _)
  | [last], hn, ⟨hlast, _⟩ => by
    rw [List.cons.sizeOf_spec] at hn
    rw [ofCall]
    refine ((below last (by omega) hlast).last.and (last.decodes hlast).last).bind
      fun tests htests => Ensures.ok fun j hj => ?_
    rw [List.mem_singleton.mp hj]
    exact (htests.1 htests.2.2).mono (List.subset_append_left _ _)
  | item :: second :: rest, hn, ⟨hitem, hrest⟩ => by
    rw [List.cons.sizeOf_spec] at hn
    rw [ofCall]
    · refine (below item (by omega) hitem).operand.bind fun x hx =>
        (keeps_ofCall (by omega) hrest).bind fun call hcall => Ensures.ok fun j hj => ?_
      rcases List.mem_cons.mp hj with rfl | hj
      · exact hx.mono (List.subset_append_left _ _)
      · exact (hcall j hj).mono (List.subset_append_right _ _)
    · simp

/-! ## Tests and column values -/

/-- Where every key is that of a comparison, each member has its test. -/
theorem Test.keeps_ofMembers : ∀ {members : List (String × Json)}, sizeOf members ≤ n →
    Json.MembersWellFormed members → namesTests members = true →
      Ensures (ofMembers members) fun tests =>
        ∀ m ∈ members, ∃ test ∈ tests, m.2.KeptIn test.operand.toJson.words
  | [], _, _, _ => Ensures.ok nofun
  | (key, value) :: rest, hn, ⟨hvalue, hrest⟩, hnames => by
    rw [List.cons.sizeOf_spec, Prod.mk.sizeOf_spec] at hn
    rw [namesTests, List.all_cons, Bool.and_eq_true] at hnames
    obtain ⟨op, hop⟩ := Option.isSome_iff_exists.mp hnames.1
    have ih := keeps_ofMembers (by omega) hrest hnames.2
    rw [ofMembers]
    simp only [hop]
    refine (below value (by omega) hvalue).operand.bind fun x hx =>
      ih.bind fun tests htests => Ensures.ok fun m hm => ?_
    rcases List.mem_cons.mp hm with rfl | hm
    · exact ⟨_, List.mem_cons_self, hx⟩
    · obtain ⟨test, htest, hkept⟩ := htests m hm
      exact ⟨test, List.mem_cons_of_mem _ htest, hkept⟩

theorem Assignment.keeps_ofMembers : ∀ {members : List (String × Json)}, sizeOf members ≤ n →
    Json.MembersWellFormed members → Ensures (ofMembers members) fun values =>
      ∀ m ∈ members, m.2.KeptIn (Json.object (toMembers values)).words
  | [], _, _ => Ensures.ok nofun
  | (column, value) :: rest, hn, ⟨hvalue, hrest⟩ => by
    rw [List.cons.sizeOf_spec, Prod.mk.sizeOf_spec] at hn
    rw [ofMembers]
    refine (below value (by omega) hvalue).operand.bind fun x hx =>
      (keeps_ofMembers (by omega) hrest).bind fun values hvalues => Ensures.ok fun m hm => ?_
    rcases List.mem_cons.mp hm with rfl | hm
    · exact hx.mono (Json.words_subset_object List.mem_cons_self)
    · refine (hvalues m hm).mono fun s hs => ?_
      obtain ⟨m', hm', hs⟩ := Json.mem_memberWords.mp hs
      exact Json.mem_memberWords.mpr ⟨m', List.mem_cons_of_mem _ hm', hs⟩

/-! ## Fields -/

theorem Field.keeps_ofMembers {members : List (String × Json)} (hn : sizeOf members ≤ n)
    (hwf : Json.MembersWellFormed members) : Ensures (ofMembers members) fun f =>
      (Json.object members).KeptIn f.toJson.words := by
  rcases members with _ | ⟨⟨key, value⟩, _ | ⟨second, rest⟩⟩
  · exact Ensures.error _
  · obtain ⟨hvalue, -⟩ := hwf
    rw [List.cons.sizeOf_spec, Prod.mk.sizeOf_spec] at hn
    have hconstant : ∀ {label : Option String} {v : Value} {j : Json}, j.KeptIn v.toJson.words →
        j.KeptIn (constant v label).toJson.words := fun {label v j} hv => by
      cases label with
      | none => exact hv.mono (Json.words_subset_single _ _)
      | some label =>
        exact hv.mono fun _ hs => Json.words_subset_single _ _ (Json.words_subset_single _ _ hs)
    have hfunction : ∀ {label func : String} {args : List Operand} {j : Json},
        j.KeptIn (wordsAll (Operand.toJsonAll args)) →
          j.KeptIn (function label func args).toJson.words := fun {label func args j} hargs => by
      refine hargs.mono fun s hs => ?_
      exact Json.words_subset_single _ _ (Json.words_subset_single _
        (.array (Operand.toJsonAll args)) hs)
    unfold ofMembers
    refine Ensures.ite (fun _ => ?_) fun _ => Ensures.ite (fun _ => ?_) fun _ =>
      Ensures.ite (fun _ => Ensures.error _) fun _ => ?_
    · refine (Json.keeps_text _ value).bind fun text htext => Ensures.ok (.single ?_)
      rw [toJson_select]
      exact htext.mono (Json.words_subset_single _ _)
    · exact (Value.keeps_ofJson value).bind fun v hv => Ensures.ok (.single (hconstant hv))
    · split
      · rename_i expression
        exact Ensures.ok (.single (.string (Json.words_subset_single key (.string expression)
          List.mem_cons_self)))
      · rename_i func argument
        obtain ⟨-, hargument, -⟩ := hvalue
        simp only [Json.object.sizeOf_spec, List.cons.sizeOf_spec, Prod.mk.sizeOf_spec] at hn
        refine Ensures.ite (fun _ => ?_) fun _ => ?_
        · exact (Value.keeps_ofJson argument).bind fun v hv =>
            Ensures.ok (.single (.single (hconstant hv)))
        · split
          · refine (Json.keeps_text _ argument).bind fun text htext =>
              Ensures.ok (.single (.single (htext.mono fun s hs => ?_)))
            exact Json.words_subset_single _ _ (Json.words_subset_single _ _ hs)
          · split
            · exact Ensures.error _
            · split
              · rename_i items
                rw [Json.array.sizeOf_spec] at hn
                exact (Operand.keeps_ofJsonAll below (by omega) hargument).bind fun args hargs =>
                  Ensures.ok (.single (.single (.array fun j hj => hfunction (hargs j hj))))
              · refine (below argument (by omega) hargument).operand.bind fun x hx =>
                  Ensures.ok (.single (.single (hfunction ?_)))
                exact hx.mono (List.subset_append_left _ _)
      · exact Ensures.error _
      · exact Ensures.error _
  · exact Ensures.error _

/-! ## Tables -/

theorem Entity.keeps_fieldsOf {j : Json} (hn : sizeOf j < n) (hwf : j.WellFormed) :
    Ensures (fieldsOf j) fun fields => j.KeptIn (wordsAll (Field.toJsonAll fields)) := by
  have hone : Ensures ((fun f => [f]) <$> Field.ofJson j) fun fields =>
      j.KeptIn (wordsAll (Field.toJsonAll fields)) :=
    (below j hn hwf).field.map fun f hf => hf.mono (List.subset_append_left _ _)
  cases j with
  | null => exact Ensures.ok (.of_texts_eq_nil rfl)
  | array items =>
    rw [Json.array.sizeOf_spec] at hn
    exact fun fields hfields =>
      .array (Field.keeps_ofJsonAll below (by omega) hwf fields hfields)
  | _ => exact hone

/-- What stands under the name of the table is kept among the fields. -/
theorem Entity.keeps_ofMembers {members : List (String × Json)} (hn : sizeOf members ≤ n)
    (hkeys : (members.map Prod.fst).Nodup) (hwf : Json.MembersWellFormed members) :
    Ensures (ofMembers {} members) fun e => ∀ m ∈ members,
      (m.1 = "$as" → ∃ label, m.2 = .string label ∧ e.label = some label) ∧
        (m.1 ≠ "$as" → e.name ≠ "$as" ∧ m.2.KeptIn (wordsAll (Field.toJsonAll e.fields))) := by
  intro e he m hm
  obtain ⟨hlabel, htable⟩ := (says_ofMembers hkeys e he).2 m hm
  refine ⟨hlabel, fun hkey => ?_⟩
  obtain ⟨hname, hfields⟩ := htable hkey
  obtain ⟨hsize, hvalue⟩ := Json.wellFormed_of_mem_members hn hwf m hm
  exact ⟨hname ▸ hkey, keeps_fieldsOf below hsize hvalue _ hfields⟩

theorem Entity.keeps_object {members : List (String × Json)} (hn : sizeOf members ≤ n)
    (hkeys : (members.map Prod.fst).Nodup) (hwf : Json.MembersWellFormed members) :
    Ensures (ofMembers {} members) fun e => (Json.object members).KeptIn e.toJson.words := by
  refine fun e he => .object fun m hm => ?_
  obtain ⟨hlabel, htable⟩ := keeps_ofMembers below hn hkeys hwf e he m hm
  by_cases hkey : m.1 = "$as"
  · obtain ⟨label, hvalue, hlabel⟩ := hlabel hkey
    rw [hvalue]
    exact .string (label_mem_words hlabel)
  · obtain ⟨hname, hfields⟩ := htable hkey
    exact hfields.mono (words_subset_fields hname)

theorem Entity.keeps_ofJson {j : Json} (hn : sizeOf j ≤ n) (hwf : j.WellFormed) :
    Ensures (ofJson j) fun e => j.KeptIn e.toJson.words := by
  unfold ofJson
  split
  · exact Ensures.ok (.string List.mem_cons_self)
  · rw [Json.object.sizeOf_spec] at hn
    exact keeps_object below (by omega) hwf.1 hwf.2
  · exact Ensures.error _

/-- A table that is selected from keeps all but its label. -/
theorem Entity.keeps_selection {j : Json} (hn : sizeOf j ≤ n) (hwf : j.WellFormed) :
    Ensures (ofJson j) fun e => ∀ s ∈ j.texts,
      s ∈ (Statement.select e.name e.fields).toJson.words ∨ s ∈ Json.ownLabels ("$select", j) ∨
        s ∈ j.selectionLabels := by
  unfold ofJson
  split
  · exact Ensures.ok fun s hs => .inl (List.mem_singleton.mp hs ▸ List.mem_cons_self)
  · rename_i members
    rw [Json.object.sizeOf_spec] at hn
    have hsize : sizeOf members ≤ n := by omega
    intro e he s hs
    rcases Json.texts_object members with htexts | ⟨hnil, -⟩
    · rw [htexts] at hs
      obtain ⟨m, hm, hs⟩ := Json.mem_memberTexts.mp hs
      by_cases hkey : m.1 = "$as"
      · refine .inr (.inl ?_)
        rw [Json.ownLabels, if_pos rfl]
        exact List.mem_flatMap.mpr ⟨m, hm, by rwa [if_pos hkey]⟩
      · obtain ⟨-, hfields⟩ := (keeps_ofMembers below hsize hwf.1 hwf.2 e he m hm).2 hkey
        rcases hfields s hs with hs | hs
        · exact .inl (Json.words_subset_single e.name (.array (Field.toJsonAll e.fields)) hs)
        · exact .inr (.inr (Json.mem_memberSelectionLabels.mpr ⟨m, hm, .inr hs⟩))
    · rw [hnil] at hs
      cases hs
  · exact Ensures.error _

theorem Assignment.keeps_ofJson (what : String) {j : Json} (hn : sizeOf j ≤ n)
    (hwf : j.WellFormed) : Ensures (ofJson what j) fun table =>
      j.KeptIn (Statement.insert table.1 table.2).toJson.words := by
  unfold ofJson
  split
  · rename_i entity values
    obtain ⟨-, hvalues, -⟩ := hwf
    simp only [Json.object.sizeOf_spec, List.cons.sizeOf_spec, Prod.mk.sizeOf_spec] at hn
    refine (keeps_ofMembers below (by omega) hvalues.2).bind fun vs hvs =>
      Ensures.ok (.single (.object fun m hm => (hvs m hm).mono ?_))
    exact Json.words_subset_single entity (.object (toMembers vs))
  · exact Ensures.error _
  · exact Ensures.error _
  · exact Ensures.error _

/-! ## Queries -/

/-- Each member of a query is kept in the words of its entry, but for the label of a selection. -/
theorem Query.Entry.keeps_ofMember (key : String) {value : Json} (hn : sizeOf value < n)
    (hwf : value.WellFormed) : Ensures (ofMember key value) fun e => ∀ s ∈ value.texts,
      s ∈ e.words ∨ s ∈ Json.ownLabels (key, value) ∨ s ∈ value.selectionLabels := by
  have hvalue := below value hn hwf
  have hkept : ∀ {r : Except QueryError Entry}, (Ensures r fun e => value.KeptIn e.words) →
      Ensures r fun e => ∀ s ∈ value.texts,
        s ∈ e.words ∨ s ∈ Json.ownLabels (key, value) ∨ s ∈ value.selectionLabels :=
    fun h e he s hs => (h e he s hs).imp_right .inr
  unfold ofMember
  -- One goal for each key, in the order in which the keys are tried.
  repeat' refine Ensures.ite (fun hkey => ?_) fun hother => ?_
  · subst hkey
    exact (hvalue.selection.map fun _ h => h).map fun _ h => h
  · exact hkept (((hvalue.assignments key).map fun _ h => h).map fun _ h => h)
  · exact hkept (((hvalue.assignments key).map fun _ h => h).map fun _ h => h)
  · exact hkept (((Json.keeps_text key value).map fun _ h => h).map fun _ h => h)
  · have hone : Ensures ((fun join => joins [join]) <$> Join.ofJson value)
        fun e => value.KeptIn e.words :=
      hvalue.join.map fun _ h => h.mono (List.subset_append_left _ _)
    refine hkept ?_
    cases value with
    | array items =>
      rw [Json.array.sizeOf_spec] at hn
      exact (Join.keeps_ofJsonAll below (by omega) hwf).map fun _ h => .array h
    | _ => exact hone
  iterate 2
    · refine hkept ?_
      cases value with
      | null => exact Ensures.ok (.of_texts_eq_nil rfl)
      | _ => exact hvalue.filter.map fun _ h => h
  · refine hkept ?_
    cases value with
    | array items =>
      rw [Json.array.sizeOf_spec] at hn
      exact (Order.keeps_ofJsonAll below (by omega) hwf).map fun _ h => .array h
    | _ => exact Ensures.error _
  · have hone : Ensures ((fun field => groups [field]) <$> Field.ofJson value)
        fun e => value.KeptIn e.words :=
      hvalue.field.map fun _ h => h.mono (List.subset_append_left _ _)
    refine hkept ?_
    cases value with
    | array items =>
      rw [Json.array.sizeOf_spec] at hn
      exact (Field.keeps_ofJsonAll below (by omega) hwf).map fun _ h => .array h
    | _ => exact hone
  · exact hkept ((Json.keeps_flag key value []).map fun _ h => h)
  · exact hkept ((Json.keeps_flag key value []).map fun _ h => h)
  · exact hkept ((Json.keeps_count key value []).map fun _ h => h)
  · exact hkept ((Json.keeps_count key value []).map fun _ h => h)
  · exact hkept ((Json.keeps_text key value).map fun _ h => h)
  · exact Ensures.error _
  · exact Ensures.error _

theorem Query.keeps_ofMembers {members : List (String × Json)} (hn : sizeOf members ≤ n)
    (hkeys : (members.map Prod.fst).Nodup) (hwf : Json.MembersWellFormed members) (q : Query) :
    Ensures (q.ofMembers members) fun q' => (Json.object members).KeptIn q'.toJson.words := by
  refine fun q' hq' => .of_members fun m hm s hs => ?_
  obtain ⟨e, he, hin⟩ := (isIn_ofMembers hkeys q' hq').2 m hm
  obtain ⟨hsize, hvalue⟩ := Json.wellFormed_of_mem_members hn hwf m hm
  exact (Entry.keeps_ofMember below m.1 hsize hvalue e he s hs).imp_left fun hs =>
    hin.words_subset hs

/-! ## Operands -/

theorem Operand.keeps_ofObject {members : List (String × Json)} (hn : sizeOf members ≤ n)
    (hkeys : (members.map Prod.fst).Nodup) (hwf : Json.MembersWellFormed members) :
    Ensures (ofObject members (fun _ => Field.ofMembers members) fun _ => Query.ofMembers ∅ members)
      fun x => (Json.object members).KeptIn x.toJson.words := by
  have hfield : Ensures (do return Operand.field (← Field.ofMembers members)) fun x =>
      (Json.object members).KeptIn x.toJson.words :=
    (Field.keeps_ofMembers below hn hwf).bind fun _ hf => Ensures.ok hf
  unfold ofObject
  refine Ensures.ite (fun _ => ?_) fun _ => Ensures.ite (fun _ => hfield) fun _ =>
    Ensures.ite (fun _ => ?_) fun _ => Ensures.ite (fun _ => hfield) fun _ => Ensures.error _
  · exact (Value.keeps_ofJson _).bind fun _ hv => Ensures.ok hv
  · exact (Query.keeps_ofMembers below hn hkeys hwf ∅).bind fun _ hq => Ensures.ok hq

theorem Operand.keeps_ofJson {j : Json} (hn : sizeOf j ≤ n) (hwf : j.WellFormed) :
    Ensures (ofJson j) fun x => j.KeptIn x.toJson.words := by
  unfold ofJson
  split
  · rw [Json.array.sizeOf_spec] at hn
    exact (keeps_ofJsonAll below (by omega) hwf).bind fun _ hxs => Ensures.ok (.array hxs)
  · rw [Json.object.sizeOf_spec] at hn
    exact keeps_ofObject below (by omega) hwf.1 hwf.2
  · exact (Value.keeps_ofJson j).bind fun _ hv => Ensures.ok hv

theorem Field.keeps_ofJson {j : Json} (hn : sizeOf j ≤ n) (hwf : j.WellFormed) :
    Ensures (ofJson j) fun f => j.KeptIn f.toJson.words := by
  unfold ofJson
  split
  · refine Ensures.ok ?_
    rw [toJson_select]
    exact .string (Json.words_subset_single _ _ List.mem_cons_self)
  · rw [Json.object.sizeOf_spec] at hn
    exact keeps_ofMembers below (by omega) hwf.2
  · exact Ensures.error _

theorem Test.keeps_ofLast {j : Json} (hn : sizeOf j ≤ n) (hwf : j.WellFormed) :
    Ensures (ofLast j) fun tests =>
      (tests.map Test.op).Nodup → j.KeptIn (lastItem tests (toMembers tests)).words := by
  have hone : ∀ {x : Operand}, j.KeptIn x.toJson.words → ([⟨.eq, x⟩].map Test.op).Nodup →
      j.KeptIn (lastItem [⟨.eq, x⟩] (toMembers [⟨.eq, x⟩])).words := fun hx hops =>
    hx.mono (words_subset_lastItem hops List.mem_cons_self)
  unfold ofLast
  split
  · rw [Json.object.sizeOf_spec] at hn
    refine Ensures.ite (fun hnames => ?_) fun _ => ?_
    · refine fun tests htests hops => .object fun m hm => ?_
      obtain ⟨test, hmem, hkept⟩ := keeps_ofMembers below (by omega) hwf.2 hnames tests htests m hm
      exact hkept.mono (words_subset_lastItem hops hmem)
    · exact (Operand.keeps_ofObject below (by omega) hwf.1 hwf.2).bind fun _ hx =>
        Ensures.ok (hone hx)
  · rw [Json.array.sizeOf_spec] at hn
    exact (Operand.keeps_ofJsonAll below (by omega) hwf).bind fun xs hxs =>
      Ensures.ok (hone (x := .list xs) (.array hxs))
  · exact (Value.keeps_ofJson j).bind fun v hv => Ensures.ok (hone (x := .value v) hv)

/-! ## Filters -/

theorem Filter.keeps_ofField (field : String) {j : Json} (hn : sizeOf j ≤ n) (hwf : j.WellFormed) :
    Ensures (ofField field j) fun f => j.KeptIn f.toJson.words := by
  have hequals : ∀ {x : Operand}, j.KeptIn x.toJson.words →
      j.KeptIn (equals field x).toJson.words := fun hx =>
    hx.mono fun _ hs => Json.words_subset_single _ _ (Json.words_subset_single _ _ hs)
  have hcall : ∀ {func : String} {argument : Json} {args : List Operand} {tests : List Test},
      argument.KeptIn
        (wordsAll (Operand.toJsonAll args ++ [lastItem tests (Test.toMembers tests)])) →
          argument.KeptIn (function field func args tests).toJson.words := fun h => by
    refine h.mono fun s hs => ?_
    exact Json.words_subset_single field (single _ (.array _))
      (Json.words_subset_single _ (.array _) hs)
  unfold ofField
  split
  · exact Ensures.ok (.object nofun)
  · rw [Json.object.sizeOf_spec] at hn
    refine Ensures.ite (fun hnames => ?_) fun _ => Ensures.ite (fun _ => ?_) fun _ => ?_
    · refine Ensures.bind (fun tests htests => ?_) fun _ h => Ensures.ok h
      refine KeptIn.object fun m hm => ?_
      obtain ⟨test, hmem, hkept⟩ :=
        Test.keeps_ofMembers below (by omega) hwf.2 hnames tests htests m hm
      exact hkept.mono (words_subset_ofTests hmem)
    · exact (Operand.keeps_ofObject below (by omega) hwf.1 hwf.2).bind fun _ hx =>
        Ensures.ok (hequals hx)
    · split
      · rename_i key argument _ _ _
        obtain ⟨-, hargument, -⟩ := hwf
        simp only [List.cons.sizeOf_spec, Prod.mk.sizeOf_spec] at hn
        split
        · exact Ensures.error _
        · split
          · rw [Json.array.sizeOf_spec] at hn
            exact (keeps_ofCall below (by omega) hargument).bind fun _ h =>
              Ensures.ok (.single (.array fun j hj => hcall (h j hj)))
          · refine ((below argument (by omega) hargument).last.and
              (argument.decodes hargument).last).bind fun tests h =>
                Ensures.ok (.single (hcall ((h.1 h.2.2).mono (List.subset_append_left _ _))))
      · exact Ensures.error _
  · rw [Json.array.sizeOf_spec] at hn
    exact (Operand.keeps_ofJsonAll below (by omega) hwf).bind fun xs hxs =>
      Ensures.ok (hequals (x := .list xs) (.array hxs))
  · exact (Value.keeps_ofJson j).bind fun v hv => Ensures.ok (hequals (x := .value v) hv)

theorem Filter.keeps_ofMembers {members : List (String × Json)} (hn : sizeOf members ≤ n)
    (hwf : Json.MembersWellFormed members) : Ensures (ofMembers members) fun f =>
      (Json.object members).KeptIn f.toJson.words := by
  rcases members with _ | ⟨⟨key, value⟩, _ | ⟨second, rest⟩⟩
  · exact Ensures.error _
  · obtain ⟨hvalue, -⟩ := hwf
    rw [List.cons.sizeOf_spec, Prod.mk.sizeOf_spec] at hn
    unfold ofMembers
    split
    · rename_i connective _
      split
      · rw [Json.array.sizeOf_spec] at hn
        refine (keeps_ofJsonAll below (by omega) hvalue).bind fun fs hfs =>
          Ensures.ok (.single (.array fun j hj => (hfs j hj).mono ?_))
        exact Json.words_subset_single _ (.array (toJsonAll fs))
      · exact Ensures.error _
    · refine Ensures.ite (fun _ => Ensures.error _) fun _ => ?_
      exact fun f hf => .single ((below value (by omega) hvalue).condition key f hf)
  · exact Ensures.error _

theorem Filter.keeps_ofJson {j : Json} (hn : sizeOf j ≤ n) (hwf : j.WellFormed) :
    Ensures (ofJson j) fun f => j.KeptIn f.toJson.words := by
  unfold ofJson
  split
  · rw [Json.object.sizeOf_spec] at hn
    exact keeps_ofMembers below (by omega) hwf.2
  · exact Ensures.error _

theorem Order.keeps_ofJson {j : Json} (hn : sizeOf j ≤ n) (hwf : j.WellFormed) :
    Ensures (ofJson j) fun order => j.KeptIn order.toJson.words := by
  have hfields : ∀ {value : Json} {direction : Direction} {fields : List Field},
      value.KeptIn (wordsAll (Field.toJsonAll fields)) →
        value.KeptIn (toJson ⟨direction, fields⟩).words := fun h => by
    refine h.mono ?_
    rw [← Json.words_oneOrAll]
    exact Json.words_subset_single _ _
  unfold ofJson
  split
  · rename_i key value
    obtain ⟨-, hvalue, -⟩ := hwf
    simp only [Json.object.sizeOf_spec, List.cons.sizeOf_spec, Prod.mk.sizeOf_spec] at hn
    split
    · exact Ensures.error _
    · split
      · rw [Json.array.sizeOf_spec] at hn
        exact (Field.keeps_ofJsonAll below (by omega) hvalue).bind fun _ hfs =>
          Ensures.ok (.single (.array fun j hj => hfields (hfs j hj)))
      · exact (below value (by omega) hvalue).field.bind fun _ hf =>
          Ensures.ok (.single (hfields (hf.mono (List.subset_append_left _ _))))
  · exact Ensures.error _
  · exact Ensures.error _

/-! ## Joins -/

theorem JoinTarget.keeps_ofJson {j : Json} (hn : sizeOf j ≤ n) (hwf : j.WellFormed) :
    Ensures (ofJson j) fun target => j.KeptIn target.toJson.words := by
  unfold ofJson
  split
  · exact Ensures.ok (.string List.mem_cons_self)
  · rw [Json.object.sizeOf_spec] at hn
    refine Ensures.ite (fun _ => ?_) fun _ => ?_
    · exact (Query.keeps_ofMembers below (by omega) hwf.1 hwf.2 ∅).bind fun _ hq => Ensures.ok hq
    · exact (Entity.keeps_object below (by omega) hwf.1 hwf.2).bind fun _ he => Ensures.ok he
  · exact Ensures.error _

theorem JoinCondition.keeps_ofJson {j : Json} (hn : sizeOf j ≤ n) (hwf : j.WellFormed) :
    Ensures (ofJson j) fun condition => j.KeptIn condition.toJson.words := by
  unfold ofJson
  split
  · rename_i items
    have hsides : Ensures (items.mapM JoinSide.ofJson) fun sides =>
        ∀ j ∈ items, j.KeptIn (wordsAll (sides.map JoinSide.toJson)) :=
      Json.keptIn_readAll rfl (fun _ _ => List.mapM_cons) (fun _ _ => List.map_cons)
        fun j _ => JoinSide.keeps_ofJson j
    exact hsides.bind fun _ h => Ensures.ok (.array h)
  · rw [Json.object.sizeOf_spec] at hn
    exact (Filter.keeps_ofMembers below (by omega) hwf.2).bind fun _ hf => Ensures.ok hf
  · exact Ensures.error _

theorem Join.keeps_ofJson {j : Json} (hn : sizeOf j ≤ n) (hwf : j.WellFormed) :
    Ensures (ofJson j) fun join => j.KeptIn join.toJson.words := by
  unfold ofJson
  split
  · rename_i members
    rw [Json.object.sizeOf_spec] at hn
    split
    · exact Ensures.error _
    · rename_i hunknown
      intro join hjoin
      refine .object fun m hm => ?_
      have hkey : m.1 ∈ ["$entity", "$with", "$as"] :=
        unknownJoinKey?_eq_none.mp hunknown m.1 (List.mem_map_of_mem hm)
      obtain ⟨htarget, hcondition, hlabel⟩ := JoinParts.ofMembers_of_mem hwf.1 m hm
      obtain ⟨htarget', hcondition', hlabel'⟩ := JoinParts.says_join _ join hjoin
      have hsmall : sizeOf members ≤ n := by omega
      obtain ⟨hsize, hvalue⟩ := Json.wellFormed_of_mem_members hsmall hwf.2 m hm
      have hkeeps := below m.2 hsize hvalue
      rcases join with ⟨target, condition, label⟩
      simp only [List.mem_cons, List.not_mem_nil, or_false] at hkey
      rcases hkey with hkey | hkey | hkey
      · exact (hkeeps.target target (htarget' _ (htarget hkey))).mono
          (Json.words_subset_object List.mem_cons_self)
      · exact (hkeeps.joinCondition condition (hcondition' _ (hcondition hkey))).mono
          (Json.words_subset_object (List.mem_cons_of_mem _ List.mem_cons_self))
      · obtain ⟨text, htext, rfl⟩ := hlabel' _ (hlabel hkey)
        exact (Json.keeps_text "$as" m.2 text htext).mono (Json.words_subset_object
          (List.mem_cons_of_mem _ (List.mem_cons_of_mem _ List.mem_cons_self)))
  · exact Ensures.error _

end Below

theorem Json.keeps (j : Json) (hwf : j.WellFormed) : j.Keeps := by
  have below : Json.KeepBelow (sizeOf j) := fun j' _ hwf' => Json.keeps j' hwf'
  exact
    { operand := Operand.keeps_ofJson below le_rfl hwf
      field := Field.keeps_ofJson below le_rfl hwf
      last := Test.keeps_ofLast below le_rfl hwf
      filter := Filter.keeps_ofJson below le_rfl hwf
      condition := fun field => Filter.keeps_ofField below field le_rfl hwf
      entity := Entity.keeps_ofJson below le_rfl hwf
      selection := Entity.keeps_selection below le_rfl hwf
      assignments := fun what => Assignment.keeps_ofJson below what le_rfl hwf
      target := JoinTarget.keeps_ofJson below le_rfl hwf
      joinCondition := JoinCondition.keeps_ofJson below le_rfl hwf
      join := Join.keeps_ofJson below le_rfl hwf
      order := Order.keeps_ofJson below le_rfl hwf }
termination_by sizeOf j

/-- Every text of a document that is read is a word of the document that is written, unless it is
the label of a table that is selected from. -/
theorem Query.texts_kept {j : Json} (hwf : j.WellFormed) {q : Query} (hq : ofJson j = .ok q) :
    ∀ s ∈ j.texts, s ∈ q.toJson.words ∨ s ∈ j.selectionLabels := by
  cases j with
  | object members =>
    exact keeps_ofMembers (fun j _ => j.keeps) le_rfl hwf.1 hwf.2 ∅ q hq
  | _ => cases hq

/-- The orders, of which the table has a label. -/
def labelledOrders : Json :=
  .object [("$select", .object [("orders", .array [.string "id"]), ("$as", .string "o")])]

theorem Query.texts_kept_labelledOrders : labelledOrders.WellFormed ∧
    ∃ q, ofJson labelledOrders = .ok q ∧ "id" ∈ q.toJson.words := by
  have hwf : labelledOrders.WellFormed := by
    simp [labelledOrders, Json.WellFormed, Json.MembersWellFormed, Json.AllWellFormed]
  refine ⟨hwf, _, rfl, (texts_kept hwf rfl "id" (by decide)).resolve_right (by decide)⟩

/-- The document is read, and the label of its table is nowhere in what is written. -/
theorem Query.not_texts_kept_labelledOrders : labelledOrders.WellFormed ∧
    "o" ∈ labelledOrders.texts ∧
      ∃ q, ofJson labelledOrders = .ok q ∧ "o" ∉ q.toJson.words := by
  refine ⟨?_, by decide, _, rfl, by decide⟩
  simp [labelledOrders, Json.WellFormed, Json.MembersWellFormed, Json.AllWellFormed]

end QueryCompiler
