import QueryCompiler.Document.Reading
import QueryCompiler.Proofs.VoidFilters

/-!
# Several tests of one function

A function whose result has to pass several tests is written once and tested several times. That is
the same text, or the same failure, as that of the function tested once in each of several filters
that all have to hold (`SqlWriter.filter_function_tests`), and it is how several tests of one column
are written. Neither the way in which literals are written nor the functions that there are matter:
only that writing the same call again has the same outcome, and that no test is the empty text.
-/

namespace QueryCompiler

theorem Connective.combine_of_ne_empty (connective : Connective) {parts : List String}
    (hsome : parts ≠ []) (hparts : ∀ part ∈ parts, part ≠ "") :
    connective.combine parts = "(" ++ Text.joined connective.separator parts ++ ")" := by
  have hshown : parts.filter (fun part => part ≠ "") = parts := by
    simpa [List.filter_eq_self] using hparts
  unfold combine
  dsimp only
  rw [hshown, if_neg hsome]

namespace SqlWriter

variable {ρ : Type} [Renders ρ]

/-- How a function of a column is written, before it is tested. -/
def columnCall (w : SqlWriter ρ) (field func : String) (args : List Operand) :
    Except SqlError String := do
  let args ← w.arguments args
  w.call func (.raw field :: args)

variable (w : SqlWriter ρ) (target field func : String) {args : List Operand} {sql : String}

theorem ensures_tests_ne_empty (ts : List Test) : Ensures (w.tests target ts) fun sqls =>
    sqls.length = ts.length ∧ ∀ sql ∈ sqls, sql ≠ "" := by
  induction ts with
  | nil => exact .ok (by simp)
  | cons t ts ih =>
    rw [tests]
    refine (ensures_test_ne_empty target t).bind fun sql hsql => ih.bind fun sqls hsqls => .ok ?_
    exact ⟨congrArg (· + 1) hsqls.1, List.forall_mem_cons.mpr ⟨hsql, hsqls.2⟩⟩

/-- Filters that are written as the tests of one expression are, are written together as these. -/
theorem filter_conjunction_of_tests {fs : List Filter} {ts : List Test} (hts : ts ≠ [])
    (h : w.filters fs = w.tests target ts) :
    w.filter (.conjunction fs)
      = (fun sqls => "(" ++ Text.joined " AND " sqls ++ ")") <$> w.tests target ts := by
  rw [Filter.conjunction, filter, h]
  cases htests : w.tests target ts with
  | error e => rfl
  | ok sqls =>
    obtain ⟨hlength, hne⟩ := ensures_tests_ne_empty w target ts sqls htests
    have hsome : sqls ≠ [] := by
      rintro rfl
      exact hts (List.length_eq_zero_iff.mp hlength.symm)
    exact congrArg Except.ok (Connective.combine_of_ne_empty .and hsome hne)

theorem filters_compare (ts : List Test) :
    w.filters (ts.map (.compare target)) = w.tests target ts := by
  induction ts with
  | nil => rfl
  | cons t ts ih => rw [List.map_cons, filters, tests, filter, ih]

theorem filter_function (args : List Operand) (ts : List Test) :
    w.filter (.function field func args ts) = w.columnCall field func args >>= fun sql =>
      if sql = "" then .ok "" else match ts with
        | [] => .ok ("(" ++ sql ++ " IS NULL)")
        | [t] => w.test sql t
        | ts => (fun sqls => "(" ++ Text.joined " AND " sqls ++ ")") <$> w.tests sql ts := by
  rw [filter, columnCall, bind_assoc]
  rfl

/-- A function that is not written cannot be tested. -/
theorem filter_function_of_error {e : SqlError} (h : w.columnCall field func args = .error e)
    (ts : List Test) : w.filter (.function field func args ts) = .error e := by
  rw [filter_function, h]
  rfl

/-- A function that is written as the empty text is not tested. -/
theorem filter_function_of_blank (h : w.columnCall field func args = .ok "") (ts : List Test) :
    w.filter (.function field func args ts) = .ok "" := by
  rw [filter_function, h]
  rfl

theorem filters_function_of_blank (h : w.columnCall field func args = .ok "") (ts : List Test) :
    w.filters (ts.map fun t => .function field func args [t]) = .ok (ts.map fun _ => "") := by
  induction ts with
  | nil => rfl
  | cons t ts ih =>
    rw [List.map_cons, filters, filter_function_of_blank w field func h, ih]
    rfl

section Written

variable (h : w.columnCall field func args = .ok sql) (hne : sql ≠ "")

include h hne

theorem filters_function_of_ok (ts : List Test) :
    w.filters (ts.map fun t => .function field func args [t]) = w.tests sql ts := by
  induction ts with
  | nil => rfl
  | cons t ts ih =>
    have hsingle : w.filter (.function field func args [t]) = w.test sql t := by
      rw [filter_function, h]
      exact if_neg hne
    rw [List.map_cons, filters, tests, hsingle, ih]

/-- Several tests of a function that is written are tests of its text. -/
theorem filter_function_of_ok (first second : Test) (rest : List Test) :
    w.filter (.function field func args (first :: second :: rest))
      = (fun sqls => "(" ++ Text.joined " AND " sqls ++ ")")
          <$> w.tests sql (first :: second :: rest) := by
  rw [filter_function, h]
  exact if_neg hne

end Written

/-- A function with two or more tests is written as the conjunction of the function with one of them
each, or is refused for the same cause. If its call is not the empty text, this is also how as many
tests of one column are written that are read from a document, with the call in the column's
place. -/
theorem filter_function_tests (args : List Operand) (first second : Test) (rest : List Test) :
    w.filter (.function field func args (first :: second :: rest))
        = w.filter (.conjunction ((first :: second :: rest).map fun t =>
            .function field func args [t])) ∧
      ∀ sql, w.columnCall field func args = .ok sql → sql ≠ "" →
        w.filter (.function field func args (first :: second :: rest))
          = w.filter (.ofTests sql (first :: second :: rest)) := by
  refine ⟨?_, fun sql hcall hne => ?_⟩
  -- Each of the filters writes the call anew, and each time it has the one outcome that it has
  -- here. So a failure of the call is met in the first of them, before any failure of a test.
  · cases hcall : w.columnCall field func args with
    | error e =>
      have hfirst := filter_function_of_error w field func hcall [first]
      rw [filter_function_of_error w field func hcall, Filter.conjunction, filter, List.map_cons,
        filters, hfirst]
      rfl
    | ok sql =>
      by_cases hblank : sql = ""
      · subst hblank
        have hparts := filters_function_of_blank w field func hcall (first :: second :: rest)
        have hnothing := (Connective.combine_eq_empty_iff .and _).mpr
          (List.forall_mem_map.mpr fun t (_ : t ∈ first :: second :: rest) => rfl)
        rw [filter_function_of_blank w field func hcall, Filter.conjunction, filter, hparts]
        exact congrArg Except.ok hnothing.symm
      · have hparts := filters_function_of_ok w field func hcall hblank (first :: second :: rest)
        rw [filter_function_of_ok w field func hcall hblank,
          filter_conjunction_of_tests w sql (List.cons_ne_nil _ _) hparts]
  · have hparts := filters_compare w sql (first :: second :: rest)
    rw [filter_function_of_ok w field func hcall hne]
    exact (filter_conjunction_of_tests w sql (List.cons_ne_nil _ _) hparts).symm

/-- A writer that knows one more function, with a renderer of its own. -/
def phonetic : SqlWriter CustomRenderer where
  dialect := .ansi
  functions := (Catalogue.ofVersionWith Renderer.render "0.1.0").register
    ⟨"soundex", .string, 1, "SOUNDEX(a)",
      fun _ args => .ok ("SOUNDEX(" ++ Argument.sqlAt args 0 ++ ")")⟩

/-- Names that sound like those from M to O. -/
def soundTests : List Test :=
  [⟨.gte, .value (.string "M")⟩, ⟨.lt, .value (.string "P")⟩]

theorem filter_function_tests_phonetic :
    phonetic.columnCall "name" "soundex" [] = .ok "SOUNDEX(name)" ∧
    phonetic.filter (.function "name" "soundex" [] soundTests)
      = phonetic.filter (.conjunction (soundTests.map fun t => .function "name" "soundex" [] [t])) ∧
    phonetic.filter (.function "name" "soundex" [] soundTests)
      = phonetic.filter (.ofTests "SOUNDEX(name)" soundTests) ∧
    phonetic.filter (.ofTests "SOUNDEX(name)" soundTests)
      = .ok "((SOUNDEX(name)>='M') AND (SOUNDEX(name)<'P'))" := by
  have hcall : phonetic.columnCall "name" "soundex" [] = .ok "SOUNDEX(name)" := rfl
  obtain ⟨hsplit, hcolumn⟩ := filter_function_tests phonetic "name" "soundex" []
    ⟨.gte, .value (.string "M")⟩ ⟨.lt, .value (.string "P")⟩ []
  exact ⟨hcall, hsplit, hcolumn _ hcall (by decide), rfl⟩

end SqlWriter

end QueryCompiler
