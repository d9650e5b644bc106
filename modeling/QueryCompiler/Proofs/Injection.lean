import QueryCompiler.Proofs.Quoting

/-!
# Texts cannot change a statement

Whatever texts stand in a query, the statement is the same but for what stands between its quotes
(`SqlWriter.blanked_query_mapText`). A query is not refused for its texts either.
-/

namespace QueryCompiler

/-- The statement with one mark, `none`, in place of each literal between quotes. -/
def blanked : ScanMode → List Char → List (Option Char)
  | _, [] => []
  | .outside, c :: cs =>
    (if c = '\'' then none else some c) :: blanked (ScanMode.outside.next c) cs
  | mode, c :: cs => blanked (mode.next c) cs

/-- The character neither opens a literal nor protects another one. -/
def IsUnquoted (c : Char) : Prop :=
  c ≠ '\'' ∧ c ≠ '\\'

theorem isUnquoted_of_isNeutral (c : Char) (h : isNeutral c = true) : IsUnquoted c := by
  simp only [isNeutral, Bool.and_eq_true, decide_eq_true_eq] at h
  exact ⟨h.1.1.1, h.1.1.2⟩

theorem blanked_body {b s : List Char} (h : IsBody b) :
    blanked .inside (b ++ '\'' :: s) = blanked .outside s := by
  induction h with
  | nil => rfl
  | char hquote hescape _ ih =>
    rw [List.cons_append, blanked, ScanMode.next, if_neg hescape, if_neg hquote]
    · exact ih
    · rintro ⟨⟩
  | escaped _ _ ih => exact ih

/-- Texts that are alike differ between quotes only. -/
theorem Likeness.Alike.blanked_eq {n m : ℕ} {s s' : List Char}
    (h : (quoting IsUnquoted isUnquoted_of_isNeutral).Alike n s s' m) :
    blanked .outside s = blanked .outside s' := by
  induction h with
  | nil => rfl
  | char hc _ ih =>
    rw [blanked, blanked, ScanMode.next, if_neg hc.1, if_neg hc.1, ih]
  | opening _ ih => exact congrArg (some '(' :: ·) ih
  | closing _ ih => exact congrArg (some ')' :: ·) ih
  | literal hb _ ih =>
    refine congrArg (none :: ·) ?_
    show blanked .inside _ = blanked .inside _
    rw [blanked_body hb.1, blanked_body hb.2.1, ih]

/-- Replacing texts, the empty one by itself and no other by the empty one, changes neither whether
the query can be written nor what stands outside of quotes, as long as there are no quotes and no
backslashes in names. -/
theorem SqlWriter.blanked_query_mapText {q : Query} {s : String → String}
    (hnames : q.Obeys (.spelled IsUnquoted)) (hempty : s "" = "")
    (hother : ∀ text, text ≠ "" → s text ≠ "") :
    ((∃ sql, standard.query q = .ok sql) ↔
      ∃ sql, standard.query (q.mapValues (Value.mapText s)) = .ok sql) ∧
    ∀ sql sql', standard.query q = .ok sql →
      standard.query (q.mapValues (Value.mapText s)) = .ok sql' →
        blanked .outside sql.toList = blanked .outside sql'.toList := by
  have hs : ∀ text, s text = "" ↔ text = "" := fun text =>
    ⟨fun h => not_imp_not.mp (hother text) h, fun h => h ▸ hempty⟩
  have hreplaces := Likeness.standard_replaces IsUnquoted isUnquoted_of_isNeutral hs
  have hagree := Likeness.agree_query hreplaces hnames
  exact ⟨hagree.isOk_iff, fun sql sql' h h' => (hagree.rel h h' 0).blanked_eq⟩

/-- The customers with a name. -/
def customersNamed (text : String) : Query :=
  { statement := some (.select "customers" [.name "id"])
    filter := some (.compare "name" ⟨.eq, .value (.string text)⟩)
    staged := {} }

/-- The name of a customer is no way into the statement. -/
theorem SqlWriter.blanked_query_customersNamed :
    ∃ sql sql', standard.query (customersNamed "Ann") = .ok sql ∧
      standard.query (customersNamed "' OR '1'='1") = .ok sql' ∧ sql ≠ sql' ∧
      blanked .outside sql.toList = blanked .outside sql'.toList := by
  have htable : Spelled IsUnquoted "customers" := by simp [Spelled, IsUnquoted]
  have hcolumn : Spelled IsUnquoted "id" := by simp [Spelled, IsUnquoted]
  have hfield : Spelled IsUnquoted "name" := by simp [Spelled, IsUnquoted]
  have hnames : (customersNamed "Ann").Obeys (.spelled IsUnquoted) :=
    ⟨by rintro _ ⟨⟩, ⟨htable, hcolumn, trivial⟩, trivial, ⟨hfield, trivial, trivial⟩, trivial, trivial,
      trivial, trivial, trivial⟩
  have hsql : standard.query (customersNamed "Ann")
      = .ok "SELECT id FROM customers WHERE (name='Ann')" := by rfl
  have hsql' : standard.query (customersNamed "' OR '1'='1")
      = .ok "SELECT id FROM customers WHERE (name='\\' OR \\'1\\'=\\'1')" := by rfl
  have h := blanked_query_mapText (s := fun text => if text = "" then "" else "' OR '1'='1") hnames
    rfl (fun text h => by simp [h])
  exact ⟨_, _, hsql, hsql', by decide, h.2 _ _ hsql hsql'⟩

end QueryCompiler
