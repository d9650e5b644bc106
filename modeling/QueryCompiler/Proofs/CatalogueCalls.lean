import QueryCompiler.Function.Catalogue
import QueryCompiler.Proofs.RoundTrip

/-!
# Calls of catalogued functions as documents

A filter on a function of the standard catalogue is read back from its document as it was, whatever
its arguments and tests are, so long as these are read back (`Filter.ofJson_call_standard`). Only
`date` is not: in a document its key is that of a date, which is looked for first.
-/

namespace QueryCompiler

open Json (single)

/-- Of the catalogued functions only `date` has a name that is taken for something else. -/
theorem Catalogue.not_mem_otherKeys : ∀ signature ∈ builtins, signature.name ≠ "" ∧
    (signature.name ≠ "date" → signature.name ∉ Filter.otherKeys) := by decide

theorem Catalogue.exists_of_contains {func : String} (h : standard.contains func = true) :
    ∃ signature ∈ builtins, signature.name = func := by
  obtain ⟨signature, hmem, hname⟩ := List.find?_isSome.mp h
  exact ⟨signature, hmem, of_decide_eq_true hname⟩

/-! ## The last item of a call -/

theorem Test.ofLast_of_namesTests {members : List (String × Json)}
    (h : Json.namesTests members = true) :
    ofLast (.object members) = ofMembers members := by
  rw [ofLast, if_pos h]

/-- What is no object of tests is the result that is expected. -/
theorem Test.ofLast_toJson (v : Value) :
    ofLast v.toJson = (fun x => [⟨.eq, x⟩]) <$> Operand.ofJson v.toJson := by
  have hscalar : ∀ r : Except QueryError Value,
      (do return [⟨.eq, .value (← r)⟩] : Except QueryError (List Test)) =
        (fun x => [⟨.eq, x⟩]) <$> (do return .value (← r) : Except QueryError Operand) := by
    rintro (e | v)
    · rfl
    · rfl
  cases v with
  | null | bool | string => rfl
  | integer n => exact hscalar _
  | float x =>
    rw [Value.toJson]
    split_ifs
    · exact hscalar _
    · rfl
  | dateTime t =>
    rw [Value.toJson, single, ofLast, if_neg (by simp [Json.namesTests, ComparisonOp.ofKey?_date]),
      Operand.ofJson]
    rcases Operand.ofObject _ _ _ with e | x
    · rfl
    · rfl

theorem Operand.ofJsonAll_toJsonAll_of_forall : ∀ {xs : List Operand},
    (∀ x ∈ xs, ofJson x.toJson = .ok x) → ofJsonAll (toJsonAll xs) = .ok xs
  | [], _ => rfl
  | x :: rest, h => by
    rw [toJsonAll, ofJsonAll, h x List.mem_cons_self,
      ofJsonAll_toJsonAll_of_forall fun y hy => h y (List.mem_cons_of_mem _ hy)]
    rfl

theorem Test.ofMembers_toMembers_of_forall : ∀ {tests : List Test},
    (∀ t ∈ tests, Operand.ofJson t.operand.toJson = .ok t.operand) →
      ofMembers (toMembers tests) = .ok tests
  | [], _ => rfl
  | ⟨op, x⟩ :: rest, h => by
    have hx : Operand.ofJson x.toJson = .ok x := h _ List.mem_cons_self
    rw [toMembers, toMember, ofMembers_key, hx,
      ofMembers_toMembers_of_forall fun t ht => h t (List.mem_cons_of_mem _ ht)]
    rfl

/-- Tests of different operators are read back where each operand is. -/
theorem Test.ofLast_lastItem_of_forall {tests : List Test} (hops : (tests.map Test.op).Nodup)
    (h : ∀ t ∈ tests, Operand.ofJson t.operand.toJson = .ok t.operand) :
    ofLast (lastItem tests (toMembers tests)) = .ok tests := by
  unfold lastItem
  split
  · rename_i v
    have hv : Operand.ofJson v.toJson = .ok (.value v) := h _ List.mem_cons_self
    rw [ofLast_toJson, hv]
    rfl
  · rw [Json.distinctMembers_eq_self (nodup_keys_toMembers hops),
      ofLast_of_namesTests (namesTests_toMembers tests), ofMembers_toMembers_of_forall h]

/-! ## Calls -/

/-- Under the key of a date there is a date's text or nothing that can be read. -/
theorem Filter.ofJson_date {field : String} (hfield : isReserved field = false)
    (items : List Json) :
    ofJson (single field (single "$date" (.array items)))
      = .error (.notString "$date" (.array items)) := by
  rw [single, single, ofJson, ofMembers, Connective.ofKey?_of_not_reserved hfield]
  simp only [hfield, Bool.false_eq_true, if_false]
  rfl

/-- A filter on a function of the standard catalogue is read back from its document, unless the
function is `date`, which is refused. -/
theorem Filter.ofJson_call_standard {field func : String} {args : List Operand}
    {tests : List Test} (hfunc : Catalogue.standard.contains func = true)
    (hfield : isReserved field = false) (hargs : ∀ x ∈ args, Operand.ofJson x.toJson = .ok x)
    (hops : (tests.map Test.op).Nodup)
    (htests : ∀ t ∈ tests, Operand.ofJson t.operand.toJson = .ok t.operand) :
    (func ≠ "date" →
      ofJson (Filter.function field func args tests).toJson =
        .ok (.function field func args tests)) ∧
    (func = "date" → ofJson (Filter.function field func args tests).toJson
      = .error (.notString "$date"
          (.array (Operand.toJsonAll args ++ [lastItem tests (Test.toMembers tests)])))) := by
  obtain ⟨signature, hmem, rfl⟩ := Catalogue.exists_of_contains hfunc
  obtain ⟨hempty, hother⟩ := Catalogue.not_mem_otherKeys signature hmem
  refine ⟨fun hdate => ?_, fun hdate => ?_⟩
  · rw [toJson, ofJson_call hfield hempty (hother hdate), ofCall_append,
      Operand.ofJsonAll_toJsonAll_of_forall hargs, Test.ofLast_lastItem_of_forall hops htests]
    rfl
  · rw [hdate, toJson]
    exact ofJson_date hfield _

/-- Names with an `a` behind the third character. -/
def lateLetter : Filter :=
  .function "name" "indexof" [.value (.string "a")]
    [⟨.gt, .value (.integer 3)⟩, ⟨.isIn, .list [.field (.name "bound"), .value .null]⟩]

theorem Filter.ofJson_lateLetter : Catalogue.standard.contains "indexof" = true ∧
    ofJson lateLetter.toJson = .ok lateLetter := by
  have hfunc : Catalogue.standard.contains "indexof" = true := by decide
  refine ⟨hfunc, (ofJson_call_standard hfunc (by decide) ?_ (by decide) ?_).1 (by decide)⟩
  · intro x hx
    rw [List.mem_singleton.mp hx]
    rfl
  · intro t ht
    rcases List.mem_pair.mp ht with rfl | rfl
    · rfl
    · rfl

/-- A filter on the day of a date is catalogued and comes from no document. -/
theorem Filter.error_ofJson_dateCall : Catalogue.standard.contains "date" = true ∧
    isReserved "placed" = false ∧
    Operand.ofJson (Operand.value (.string "2024-05-01")).toJson
      = .ok (.value (.string "2024-05-01")) ∧
    ofJson (Filter.function "placed" "date" [] [⟨.eq, .value (.string "2024-05-01")⟩]).toJson
      = .error (.notString "$date" (.array [.string "2024-05-01"])) :=
  ⟨by decide, by decide, rfl, rfl⟩

end QueryCompiler
