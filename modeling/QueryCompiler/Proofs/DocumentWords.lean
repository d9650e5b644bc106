import QueryCompiler.Proofs.QueryEntries
import QueryCompiler.Proofs.RoundTrip

/-!
# The words of a document

The strings that stand in a document as values are its texts (`Json.texts`), and its words are the
keys of its objects too (`Json.words`). A table that is selected from may have a label in the
document (`Json.selectionLabels`). Here is where such strings stand, what it is for the texts of a
document to be kept among given words (`Json.KeptIn`), and which words the parts of a query write.
-/

namespace QueryCompiler

open Json (single)

namespace Json

mutual

/-- The keys and the strings of a document, at any depth. -/
def words : Json → List String
  | .string s => [s]
  | .array items => wordsAll items
  | .object members => memberWords members
  | _ => []

/-- The words of all documents. -/
def wordsAll : List Json → List String
  | [] => []
  | item :: rest => item.words ++ wordsAll rest

/-- The keys of the members, and the words of what stands under them. -/
def memberWords : List (String × Json) → List String
  | [] => []
  | (key, value) :: rest => key :: (value.words ++ memberWords rest)

end

mutual

/-- The strings of a document, at any depth, but for those of dates. -/
def texts : Json → List String
  | .string s => [s]
  | .array items => textsAll items
  | .object [("$date", .string _)] => []
  | .object members => memberTexts members
  | _ => []

/-- The texts of all documents. -/
def textsAll : List Json → List String
  | [] => []
  | item :: rest => item.texts ++ textsAll rest

/-- The texts of what stands under the keys. -/
def memberTexts : List (String × Json) → List String
  | [] => []
  | (_, value) :: rest => value.texts ++ memberTexts rest

end

/-- What an object says under the key of labels. -/
def labelTexts : Json → List String
  | .object members => members.flatMap fun m => if m.1 = "$as" then m.2.texts else []
  | _ => []

/-- The label of the table that is selected from, if the member is a selection. -/
def ownLabels (m : String × Json) : List String :=
  if m.1 = "$select" then m.2.labelTexts else []

mutual

/-- The labels of the tables that are selected from, at any depth. -/
def selectionLabels : Json → List String
  | .array items => selectionLabelsAll items
  | .object members => memberSelectionLabels members
  | _ => []

/-- The labels in all documents. -/
def selectionLabelsAll : List Json → List String
  | [] => []
  | item :: rest => item.selectionLabels ++ selectionLabelsAll rest

/-- The labels in selections among the members, and further down. -/
def memberSelectionLabels : List (String × Json) → List String
  | [] => []
  | (key, value) :: rest =>
    ownLabels (key, value) ++ (value.selectionLabels ++ memberSelectionLabels rest)

end

variable {s : String} {items : List Json} {members : List (String × Json)}

/-! ## Where strings stand -/

theorem mem_wordsAll : s ∈ wordsAll items ↔ ∃ item ∈ items, s ∈ item.words := by
  induction items with
  | nil => simp [wordsAll]
  | cons item rest ih => rw [wordsAll, List.mem_append, ih, List.exists_mem_cons_iff]

theorem mem_memberWords :
    s ∈ memberWords members ↔ ∃ m ∈ members, s = m.1 ∨ s ∈ m.2.words := by
  induction members with
  | nil => simp [memberWords]
  | cons m rest ih =>
    rw [memberWords, List.mem_cons, List.mem_append, ih, List.exists_mem_cons_iff, or_assoc]

theorem mem_textsAll : s ∈ textsAll items ↔ ∃ item ∈ items, s ∈ item.texts := by
  induction items with
  | nil => simp [textsAll]
  | cons item rest ih => rw [textsAll, List.mem_append, ih, List.exists_mem_cons_iff]

theorem mem_memberTexts : s ∈ memberTexts members ↔ ∃ m ∈ members, s ∈ m.2.texts := by
  induction members with
  | nil => simp [memberTexts]
  | cons m rest ih => rw [memberTexts, List.mem_append, ih, List.exists_mem_cons_iff]

theorem mem_selectionLabelsAll :
    s ∈ selectionLabelsAll items ↔ ∃ item ∈ items, s ∈ item.selectionLabels := by
  induction items with
  | nil => simp [selectionLabelsAll]
  | cons item rest ih => rw [selectionLabelsAll, List.mem_append, ih, List.exists_mem_cons_iff]

theorem mem_memberSelectionLabels : s ∈ memberSelectionLabels members ↔
    ∃ m ∈ members, s ∈ ownLabels m ∨ s ∈ m.2.selectionLabels := by
  induction members with
  | nil => simp [memberSelectionLabels]
  | cons m rest ih =>
    rw [memberSelectionLabels, List.mem_append, List.mem_append, ih, List.exists_mem_cons_iff,
      or_assoc]

theorem texts_object (members : List (String × Json)) :
    (object members).texts = memberTexts members ∨
      (object members).texts = [] ∧ ∃ text, members = [("$date", .string text)] := by
  by_cases h : ∃ text, members = [("$date", .string text)]
  · obtain ⟨text, rfl⟩ := h
    exact .inr ⟨rfl, text, rfl⟩
  · refine .inl ?_
    rw [texts]
    rintro text ⟨⟩
    exact h ⟨text, rfl⟩

/-! ## Words of parts -/

theorem words_subset_array {item : Json} (h : item ∈ items) : item.words ⊆ (array items).words :=
  fun _ hs => mem_wordsAll.mpr ⟨item, h, hs⟩

theorem words_subset_object {key : String} {value : Json} (h : (key, value) ∈ members) :
    value.words ⊆ (object members).words := fun _ hs =>
  mem_memberWords.mpr ⟨(key, value), h, .inr hs⟩

theorem words_subset_single (key : String) (value : Json) :
    value.words ⊆ (single key value).words :=
  words_subset_object List.mem_cons_self

theorem words_oneOrAll (items : List Json) : (oneOrAll items).words = wordsAll items := by
  rcases items with _ | ⟨item, _ | _⟩
  · rfl
  · exact (List.append_nil _).symm
  · rfl

/-! ## Texts that are kept -/

/-- Every text of the document is among the words, unless it is the label of a selection. -/
def KeptIn (words : List String) (j : Json) : Prop :=
  ∀ s ∈ j.texts, s ∈ words ∨ s ∈ j.selectionLabels

namespace KeptIn

variable {j : Json} {ws ws' : List String}

theorem mono (h : j.KeptIn ws) (hsub : ws ⊆ ws') : j.KeptIn ws' := fun s hs =>
  (h s hs).imp_left fun hmem => hsub hmem

theorem of_texts_eq_nil (h : j.texts = []) : j.KeptIn ws := fun s hs => by
  rw [h] at hs
  cases hs

theorem string (h : s ∈ ws) : (Json.string s).KeptIn ws := fun t ht => by
  rw [texts, List.mem_singleton] at ht
  exact .inl (ht ▸ h)

theorem array (h : ∀ item ∈ items, item.KeptIn ws) : (Json.array items).KeptIn ws := fun s hs => by
  obtain ⟨item, hitem, hs⟩ := mem_textsAll.mp hs
  exact (h item hitem s hs).imp_right fun hlabel => mem_selectionLabelsAll.mpr ⟨item, hitem, hlabel⟩

/-- The members of an object are kept, where a label may be lost from a selection among them. -/
theorem of_members (h : ∀ m ∈ members, ∀ s ∈ m.2.texts,
    s ∈ ws ∨ s ∈ ownLabels m ∨ s ∈ m.2.selectionLabels) : (Json.object members).KeptIn ws := by
  rcases texts_object members with htexts | ⟨hnil, -⟩
  · intro s hs
    rw [htexts] at hs
    obtain ⟨m, hm, hs⟩ := mem_memberTexts.mp hs
    exact (h m hm s hs).imp_right fun hlabel => mem_memberSelectionLabels.mpr ⟨m, hm, hlabel⟩
  · exact of_texts_eq_nil hnil

theorem object (h : ∀ m ∈ members, m.2.KeptIn ws) : (Json.object members).KeptIn ws :=
  of_members fun m hm s hs => (h m hm s hs).imp_right .inr

theorem single {key : String} {value : Json} (h : value.KeptIn ws) :
    (Json.object [(key, value)]).KeptIn ws :=
  object fun _ hm => List.mem_singleton.mp hm ▸ h

end KeptIn

/-- What is read from the items of an array keeps the texts of all of them, if it does so for
each. -/
theorem keptIn_readAll {α : Type} {read : Json → Except QueryError α}
    {readAll : List Json → Except QueryError (List α)} {write : α → Json}
    {writeAll : List α → List Json} (hnil : readAll [] = .ok [])
    (hcons : ∀ j rest, readAll (j :: rest) =
      read j >>= fun x => readAll rest >>= fun xs => pure (x :: xs))
    (hwrite : ∀ x xs, writeAll (x :: xs) = write x :: writeAll xs)
    (h : ∀ j ∈ items, Ensures (read j) fun x => j.KeptIn (write x).words) :
    Ensures (readAll items) fun xs => ∀ j ∈ items, j.KeptIn (wordsAll (writeAll xs)) := by
  induction items with
  | nil =>
    rw [hnil]
    exact Ensures.ok nofun
  | cons item rest ih =>
    rw [hcons]
    refine (h item List.mem_cons_self).bind fun x hx =>
      (ih fun j hj => h j (List.mem_cons_of_mem _ hj)).bind fun xs hxs => Ensures.ok ?_
    rw [hwrite, wordsAll]
    intro j hj
    rcases List.mem_cons.mp hj with rfl | hj
    · exact hx.mono (List.subset_append_left _ _)
    · exact (hxs j hj).mono (List.subset_append_right _ _)

end Json

/-! ## What the parts of a query write -/

theorem Field.toJson_select (text : String) :
    (Field.select text).toJson = single "$name" (.string text) := by
  rcases select_cases text with hname | ⟨entity, column, hqualified, htext⟩
  · rw [hname]
    rfl
  · rw [hqualified, toJson, htext]

theorem Test.mem_toMembers {test : Test} : ∀ {tests : List Test}, test ∈ tests →
    (test.op.key, test.operand.toJson) ∈ toMembers tests
  | ⟨_, _⟩ :: _, h => by
    rcases List.mem_cons.mp h with rfl | h
    · exact List.mem_cons_self
    · exact List.mem_cons_of_mem _ (mem_toMembers h)

theorem Test.words_subset_lastItem {tests : List Test} {test : Test}
    (hops : (tests.map Test.op).Nodup) (h : test ∈ tests) :
    test.operand.toJson.words ⊆ (lastItem tests (toMembers tests)).words := by
  unfold lastItem
  split
  · rw [List.mem_singleton.mp h]
    exact fun _ hs => hs
  · rw [Json.distinctMembers_eq_self (nodup_keys_toMembers hops)]
    exact Json.words_subset_object (mem_toMembers h)

theorem Filter.words_subset_ofTests {field : String} {tests : List Test} {test : Test}
    (h : test ∈ tests) : test.operand.toJson.words ⊆ (Filter.ofTests field tests).toJson.words := by
  have hone : ∀ test : Test,
      test.operand.toJson.words ⊆ (Filter.compare field test).toJson.words := fun ⟨_, _⟩ =>
    fun _ hs => Json.words_subset_single _ _ (Json.words_subset_single _ _ hs)
  unfold ofTests
  split
  · rw [List.mem_singleton.mp h]
    exact hone _
  · rw [conjunction, toJson, toJsonAll_eq_map, List.map_map]
    exact fun _ hs => Json.words_subset_single _ _
      (Json.words_subset_array (List.mem_map_of_mem h) (hone test hs))

theorem Entity.label_mem_words {e : Entity} {label : String} (h : e.label = some label) :
    label ∈ e.toJson.words := by
  rcases e with ⟨name, fields, _⟩
  cases h
  by_cases hname : name = "$as"
  · subst hname
    exact Json.words_subset_single "$as" (.string label) List.mem_cons_self
  · rw [toJson_eq_members hname]
    have hmem : ("$as", .string label) ∈ (name, .array (Field.toJsonAll fields)) ::
        optionalMember "$as" (some (.string label)) := List.mem_cons_of_mem _ List.mem_cons_self
    exact Json.words_subset_object hmem List.mem_cons_self

theorem Entity.words_subset_fields {e : Entity} (h : e.name ≠ "$as") :
    Json.wordsAll (Field.toJsonAll e.fields) ⊆ e.toJson.words := by
  rcases e with ⟨name, fields, label⟩
  rw [toJson_eq_members h]
  have hmem : (name, .array (Field.toJsonAll fields)) ∈ (name, .array (Field.toJsonAll fields)) ::
      optionalMember "$as" (label.map .string) := List.mem_cons_self
  exact Json.words_subset_object hmem

/-- The words that an entry writes. -/
def Query.Entry.words : Entry → List String
  | statement s => s.toJson.words
  | joins js => Json.wordsAll (Join.toJsonAll js)
  | filter (some f) => f.toJson.words
  | prepared (some f) => f.toJson.words
  | orders os => Json.wordsAll (Order.toJsonAll os)
  | groups fields => Json.wordsAll (Field.toJsonAll fields)
  | label name => [name]
  | _ => []

section Members

variable {key : String} {items : List Json} {members : List (String × Json)}

theorem Json.words_subset_itemsMember (h : itemsMember key items ⊆ members) :
    wordsAll items ⊆ (object members).words := by
  cases items with
  | nil => exact List.nil_subset _
  | cons item rest =>
    rw [← words_oneOrAll]
    exact words_subset_object (h List.mem_cons_self)

theorem Json.words_subset_listMember (h : listMember key items ⊆ members) :
    wordsAll items ⊆ (object members).words := by
  cases items with
  | nil => exact List.nil_subset _
  | cons item rest =>
    have hmem : (key, array (item :: rest)) ∈ members := h List.mem_cons_self
    exact words_subset_object hmem

end Members

/-- The words of an entry are among those of the query where it stands. -/
theorem Query.Entry.IsIn.words_subset {q : Query} {e : Entry} (h : e.IsIn q) :
    e.words ⊆ q.toJson.words := by
  rw [q.toJson_eq_members]
  cases e with
  | statement s =>
    refine Json.words_subset_object (?_ : (s.key, s.toJson) ∈ q.members)
    rw [members, show q.statement = some s from h]
    simp [Statement.toMembers]
  | joins js =>
    have hmem : itemsMember "$expand" (Join.toJsonAll q.joins) ⊆ q.members := fun m hm => by
      simp [members, hm]
    obtain rfl : q.joins = js := h
    exact Json.words_subset_itemsMember hmem
  | filter f =>
    cases f with
    | none => exact List.nil_subset _
    | some f =>
      refine Json.words_subset_object (?_ : ("$where", f.toJson) ∈ q.members)
      rw [members, h f rfl]
      simp [Filter.toMembers]
  | prepared f =>
    cases f with
    | none => exact List.nil_subset _
    | some f =>
      refine Json.words_subset_object (?_ : ("$prepared", f.toJson) ∈ q.members)
      rw [members, h f rfl]
      simp [Filter.toMembers]
  | orders os =>
    have hmem : listMember "$order" (Order.toJsonAll q.orders) ⊆ q.members := fun m hm => by
      simp [members, hm]
    obtain rfl : q.orders = os := h
    exact Json.words_subset_listMember hmem
  | groups fields =>
    have hmem : listMember "$group" (Field.toJsonAll q.groups) ⊆ q.members := fun m hm => by
      simp [members, hm]
    obtain rfl : q.groups = fields := h
    exact Json.words_subset_listMember hmem
  | label name =>
    refine Json.words_subset_object (?_ : ("$alias", .string name) ∈ q.members)
    rw [members, show q.label = some name from h]
    simp [optionalMember]
  | distinct | fixed | skip | take => exact List.nil_subset _

end QueryCompiler
