import QueryCompiler.Proofs.Decoded
import QueryCompiler.Proofs.LikeQueries
import QueryCompiler.Proofs.RoundTrip
import QueryCompiler.Proofs.SameDocument

/-!
# Reading a document and writing it again

The document that is written for a query that was read is read as a query again, with the same
document and the same statement, exactly if no selected and no joined table has a reserved name
(`Query.normalised_iff`). A table that stands by its name alone is read whatever its name is, but it
is written as a key, and there a reserved name is refused (`Query.not_normalised_archiveJoin`).
-/

namespace QueryCompiler

/-- Equal texts are alike. -/
def Likeness.equality : Likeness where
  plain _ := True
  body := Eq
  plain_of_neutral _ _ := trivial
  body_of_neutral _ _ := rfl
  body_append hs ht := congrArg₂ (· ++ ·) hs ht
  body_eq_nil h := h ▸ Iff.rfl

namespace Likeness

theorem Alike.eq {n m : ℕ} {s s' : List Char} (h : equality.Alike n s s' m) : s = s' := by
  induction h with
  | nil => rfl
  | char _ _ ih => rw [ih]
  | opening _ ih => rw [ih]
  | closing _ ih => rw [ih]
  | literal hb _ ih => rw [ih, show _ = _ from hb]

theorem Like.eq {s s' : String} (h : equality.Like s s') : s = s' :=
  String.toList_inj.mp (h 0).eq

theorem LikeRefusal.eq {e e' : SqlError} (h : equality.LikeRefusal e e') : e = e' := by
  rcases h with _ | ⟨_ | ⟨_, hsql⟩⟩
  · rfl
  · rfl
  · rw [hsql.eq]

theorem like_self (s : String) : equality.Like s s := Like.of_plain fun _ _ => trivial

theorem likeArgument_self (a : Argument) : equality.LikeArgument a a := by
  refine ⟨like_self a.sql, ?_, rfl, rfl⟩
  rcases a.pattern with _ | p
  · exact .none
  · exact .some rfl

end Likeness

theorem SqlWriter.standard_literal_truncated (v : Value) :
    standard.dialect.literal v.truncated = standard.dialect.literal v := by
  rcases v with _ | _ | _ | _ | _ | t
  all_goals try rfl
  exact congrArg (fun text => "'" ++ text ++ "'") t.statementText_truncated

theorem SqlWriter.standard_literalArgument_truncated (v : Value) :
    standard.literalArgument v.truncated = standard.literalArgument v := by
  rcases v with _ | _ | _ | _ | _ | t
  all_goals try rfl
  exact congrArg Argument.quoted (standard_literal_truncated (.dateTime t))

theorem Likeness.equality_replaces : equality.Replaces .standard Value.truncated where
  literal v := by
    rw [SqlWriter.standard_literal_truncated]
    exact like_self _
  argument v := by
    rw [SqlWriter.standard_literalArgument_truncated]
    exact likeArgument_self _
  isNull v := by cases v <;> rfl

/-- There are no bounds to names of any characters. -/
theorem Law.spelled_weaker (M : Law) : (Law.spelled fun _ => True).Weaker M where
  value _ _ := trivial
  field f _ := by
    cases f <;> simp [spelled, Spelled]
  operand _ _ := trivial
  filter f _ := by cases f <;> simp [spelled, Spelled]
  entity _ _ := by simp [spelled, Spelled]
  column _ _ := by simp [spelled, Spelled]
  statement _ _ := by simp [spelled, Spelled]
  target _ _ := trivial
  side _ _ := by simp [spelled, Spelled]
  join _ _ := by simp [spelled, Spelled]
  query _ _ := by simp [spelled, Spelled]

/-- The statement does not tell fractions of milliseconds. -/
theorem SqlWriter.standard_query_truncated {q : Query} (h : q.Obeys .decoded) :
    standard.query (q.mapValues Value.truncated) = standard.query q := by
  have hnames : q.Obeys (.spelled fun _ => True) := h.mono (Law.spelled_weaker .decoded)
  have hagree := Likeness.agree_query Likeness.equality_replaces hnames
  generalize standard.query q = r at hagree ⊢
  generalize standard.query (q.mapValues Value.truncated) = r' at hagree ⊢
  rcases hagree with hsql | hrefusal
  · rw [hsql.eq]
  · rw [hrefusal.eq]

/-- What is written for a query that was read is read as a query with the same document and the same
statement exactly if no selected and no joined table has a reserved name; and that query is the
first one if the dates in it are whole milliseconds. -/
theorem Query.normalised_iff {j : Json} {q : Query} (hj : j.WellFormed) (h : ofJson j = .ok q) :
    (∃ q', ofJson q.toJson = .ok q' ∧ q'.toJson = q.toJson ∧ q'.fingerprint = q.fingerprint ∧
      SqlWriter.standard.query q' = SqlWriter.standard.query q ∧
        (q.Obeys .wholeDates → q' = q)) ↔ q.Obeys .plainTables := by
  have hdecoded : q.Obeys .decoded := obeys_ofJson hj q h
  have hyields := ofJson_toJson hdecoded
  refine ⟨fun ⟨q', hq', _⟩ => ((hyields q').mp hq').1, fun hplain => ?_⟩
  have hdocument := toJson_mapValues Value.toJson_truncated q
  refine ⟨q.mapValues Value.truncated, (hyields _).mpr ⟨hplain, rfl⟩, hdocument, ?_,
    SqlWriter.standard_query_truncated hdecoded, fun hwhole => ?_⟩
  · rw [fingerprint, fingerprint, hdocument]
  · exact mapValues_eq_self (hwhole.mono Law.fixing_truncated_weaker)

/-- The orders of one instant, of which the document tells milliseconds only. -/
def instantOrders : Query :=
  { statement := some (.select "orders" [.name "id"])
    filter := some (.compare "placed" ⟨.eq, .value (.dateTime ⟨2024, 5, 1, 10, 20, 30, 123456000,
      by decide, by decide, by decide⟩)⟩)
    staged := {} }

/-- The orders of one instant as short as they can be asked for. -/
def instantDocument : Json :=
  .object [("$select", .object [("orders", .array [.string "id"])]),
    ("$where", .object [("placed", .object [("$date", .string "2024-05-01T10:20:30.123456Z")])])]

theorem Query.normalised_instantOrders : ofJson instantDocument = .ok instantOrders ∧
    ∃ q', ofJson instantOrders.toJson = .ok q' ∧ q'.toJson = instantOrders.toJson ∧
      SqlWriter.standard.query q' = SqlWriter.standard.query instantOrders := by
  have hwf : instantDocument.WellFormed := by
    simp [instantDocument, Json.WellFormed, Json.MembersWellFormed, Json.AllWellFormed]
  have hq : ofJson instantDocument = .ok instantOrders := by rfl
  have hplain : instantOrders.Obeys .plainTables :=
    ⟨trivial, ⟨rfl, trivial, trivial⟩, trivial, ⟨trivial, trivial, trivial⟩, trivial, trivial,
      trivial, trivial, trivial⟩
  obtain ⟨q', hq', hdocument, -, hsql, -⟩ := (normalised_iff hwf hq).mpr hplain
  exact ⟨hq, q', hq', hdocument, hsql⟩

/-- A join to a table with a reserved name, which stands there by its name alone. -/
def archiveJoin : Json :=
  .object [("$select", .object [("orders", .array [.string "id"])]),
    ("$expand", .object [("$entity", .string "$archive"), ("$with", .object [("id", .integer 1)])])]

/-- The document is read, and what is written for the query is refused. -/
theorem Query.not_normalised_archiveJoin : archiveJoin.WellFormed ∧
    ∃ q, ofJson archiveJoin = .ok q ∧ ofJson q.toJson = .error (.unknownOperator "$archive") := by
  refine ⟨?_, _, rfl, rfl⟩
  simp [archiveJoin, Json.WellFormed, Json.MembersWellFormed, Json.AllWellFormed]

end QueryCompiler
