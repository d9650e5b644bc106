import QueryCompiler.Proofs.LikeFunctions
import QueryCompiler.Proofs.Traversal
import QueryCompiler.Sql.Writer

/-!
# Clauses with like parts

The clauses of a statement are written alike where their parts are. What a comparison or a
combination of conditions is written as stands between brackets of its own
(`Likeness.Enclosed`), and a name is like itself if it has plain characters only
(`Law.spelled`).
-/

namespace QueryCompiler

/-- The name has only such characters. -/
def Spelled (p : Char → Prop) (name : String) : Prop :=
  ∀ c ∈ name.toList, p c

/-- Every name has only such characters: of fields, of tables, of columns and of what is given a new
name. Expressions that are passed through as they stand count as names. -/
def Law.spelled (p : Char → Prop) : Law where
  field
    | .name name => Spelled p name
    | .qualified entity name => Spelled p entity ∧ Spelled p name
    | .labelled label expression => Spelled p label ∧ Spelled p expression
    | .aggregate label _ name => Spelled p label ∧ Spelled p name
    | .function label _ _ => Spelled p label
    | .constant _ label => ∀ name ∈ label, Spelled p name
  filter
    | .logical _ _ => True
    | .compare field _ => Spelled p field
    | .function field _ _ _ => Spelled p field
  entity e := Spelled p e.name ∧ ∀ name ∈ e.label, Spelled p name
  column c := Spelled p c
  statement s := Spelled p s.entity
  side s := Spelled p s.entity ∧ ∀ c ∈ s.columns, Spelled p c
  join j := ∀ name ∈ j.label, Spelled p name
  query q := ∀ name ∈ q.label, Spelled p name

theorem Spelled.some {p : Char → Prop} {name : String} (h : Spelled p name) :
    ∀ name' ∈ Option.some name, Spelled p name' := by
  rintro _ ⟨⟩
  exact h

namespace Likeness

variable {L : Likeness}

/-- Causes for refusing a query that are equal but for a text that they tell. -/
inductive LikeRefusal (L : Likeness) : SqlError → SqlError → Prop
  | same (e : SqlError) : LikeRefusal L e e
  | function {e e' : FunctionError} (h : L.LikeFault e e') :
      LikeRefusal L (.function e) (.function e')

/-- Both texts are empty, or both stand between brackets and what is inside is alike. -/
inductive Enclosed (L : Likeness) : String → String → Prop
  | empty : Enclosed L "" ""
  | brackets {s s' : String} (h : L.Like s s') : Enclosed L ("(" ++ s ++ ")") ("(" ++ s' ++ ")")

section Texts

variable {s s' t t' x x' : String} {parts parts' : List String}

theorem Enclosed.like (h : L.Enclosed s s') : L.Like s s' := by
  rcases h with _ | h
  · exact Like.empty
  · exact h.brackets

theorem Enclosed.of_inner {i i' : String} (h : L.Like i i') (hs : s = "(" ++ i ++ ")")
    (hs' : s' = "(" ++ i' ++ ")") : L.Enclosed s s' := by
  rw [hs, hs']
  exact .brackets h

theorem Enclosed.comparison {sign : String} (hsign : ∀ n, bracketsBehind? n sign.toList = some n)
    (ht : L.Like t t') (hx : L.Like x x') :
    L.Enclosed ("(" ++ t ++ sign ++ x ++ ")") ("(" ++ t' ++ sign ++ x' ++ ")") :=
  .of_inner ((ht.append (Like.words hsign)).append hx)
    (String.toList_inj.mp (by simp)) (String.toList_inj.mp (by simp))

theorem Enclosed.inequality (ht : L.Like t t') (hx : L.Like x x') :
    L.Enclosed ("(NOT " ++ t ++ "=" ++ x ++ ")") ("(NOT " ++ t' ++ "=" ++ x' ++ ")") :=
  have hnot : L.Like "NOT " "NOT " := Like.words fun _ => rfl
  have hequals : L.Like "=" "=" := Like.words fun _ => rfl
  .of_inner (((hnot.append ht).append hequals).append hx)
    (String.toList_inj.mp (by simp)) (String.toList_inj.mp (by simp))

theorem Like.membership (ht : L.Like t t') (hx : L.Like x x') :
    L.Like (t ++ " IN (" ++ x ++ ")") (t' ++ " IN (" ++ x' ++ ")") :=
  Like.closed fun n => by
    simp only [String.toList_append]
    exact ((ht n).append (Alike.of_brackets rfl)).append (hx (n + 1))

theorem Enclosed.membership (ht : L.Like t t') (hx : L.Like x x') :
    L.Enclosed ("(" ++ t ++ " IN (" ++ x ++ "))") ("(" ++ t' ++ " IN (" ++ x' ++ "))") :=
  .of_inner (ht.membership hx)
    (String.toList_inj.mp (by simp)) (String.toList_inj.mp (by simp))

theorem Enclosed.exclusion (ht : L.Like t t') (hx : L.Like x x') :
    L.Enclosed ("(NOT " ++ t ++ " IN (" ++ x ++ "))") ("(NOT " ++ t' ++ " IN (" ++ x' ++ "))") :=
  have hnot : L.Like "NOT " "NOT " := Like.words fun _ => rfl
  .of_inner (hnot.append (ht.membership hx))
    (String.toList_inj.mp (by simp)) (String.toList_inj.mp (by simp))

theorem Enclosed.null (ht : L.Like t t') :
    L.Enclosed ("(" ++ t ++ " IS NULL)") ("(" ++ t' ++ " IS NULL)") :=
  have hnull : L.Like " IS NULL" " IS NULL" := Like.words fun _ => rfl
  .of_inner (ht.append hnull) (String.toList_inj.mp (by simp)) (String.toList_inj.mp (by simp))

theorem Enclosed.notNull (ht : L.Like t t') :
    L.Enclosed ("(NOT " ++ t ++ " IS NULL)") ("(NOT " ++ t' ++ " IS NULL)") :=
  have hnot : L.Like "NOT " "NOT " := Like.words fun _ => rfl
  have hnull : L.Like " IS NULL" " IS NULL" := Like.words fun _ => rfl
  .of_inner ((hnot.append ht).append hnull)
    (String.toList_inj.mp (by simp)) (String.toList_inj.mp (by simp))

theorem Like.separated (connective : Connective) (h : List.Forall₂ L.Like parts parts') :
    L.Like (Text.joined connective.separator parts) (Text.joined connective.separator parts') := by
  refine Like.joined (Like.words fun _ => ?_) h
  cases connective <;> rfl

/-- Whatever says nothing on one side says nothing on the other. -/
theorem forall₂_shown (h : List.Forall₂ L.Enclosed parts parts') :
    List.Forall₂ L.Like (parts.filter fun part => part ≠ "")
      (parts'.filter fun part => part ≠ "") := by
  induction h with
  | nil => exact .nil
  | @cons part part' _ _ hpart _ ih =>
    have hempty : decide (part ≠ "") = decide (part' ≠ "") :=
      decide_eq_decide.mpr (not_congr hpart.like.eq_empty_iff)
    rw [List.filter_cons, List.filter_cons, hempty]
    split_ifs
    · exact .cons hpart.like ih
    · exact ih

theorem Enclosed.combine (connective : Connective) (h : List.Forall₂ L.Enclosed parts parts') :
    L.Enclosed (connective.combine parts) (connective.combine parts') := by
  have hshown := forall₂_shown h
  unfold Connective.combine
  generalize (parts.filter fun part => part ≠ "") = shown at hshown ⊢
  generalize (parts'.filter fun part => part ≠ "") = shown' at hshown ⊢
  rcases hshown with _ | ⟨hfirst, hrest⟩
  · exact .empty
  · exact .brackets (Like.separated connective (.cons hfirst hrest))

theorem Like.commas (h : List.Forall₂ L.Like parts parts') :
    L.Like (Text.joined ", " parts) (Text.joined ", " parts') :=
  Like.joined (Like.words fun _ => rfl) h

theorem Like.of_spelled {name : String} (h : Spelled L.plain name) : L.Like name name :=
  Like.of_plain h

theorem Like.named (use : FieldUse) (h : L.Like s s') {label : Option String}
    (hlabel : ∀ name ∈ label, Spelled L.plain name) :
    L.Like (use.named s label) (use.named s' label) := by
  rcases label with _ | label
  · exact h
  · unfold FieldUse.named
    split_ifs
    · have has : L.Like " AS " " AS " := Like.words fun _ => rfl
      exact (h.append has).append (Like.of_spelled (hlabel label rfl))
    · exact h

theorem Like.number (n : UInt64) : L.Like (toString n) (toString n) :=
  have htext : toString n = toString (n.toNat : ℤ) := rfl
  htext ▸ Like.integer n.toNat

theorem Like.limitClause (skip take : Option UInt64) :
    L.Like (SqlWriter.limitClause skip take) (SqlWriter.limitClause skip take) := by
  have hlimit : L.Like " LIMIT " " LIMIT " := Like.words fun _ => rfl
  have hcomma : L.Like ", " ", " := Like.words fun _ => rfl
  rcases take with _ | take
  · exact Like.empty
  · rcases skip with _ | skip
    · exact hlimit.append (Like.number take)
    · simp only [SqlWriter.limitClause]
      split_ifs
      · exact ((hlimit.append (Like.number skip)).append hcomma).append (Like.number take)
      · exact hlimit.append (Like.number take)

theorem Like.clause {words : String} (hwords : ∀ n, bracketsBehind? n words.toList = some n)
    (h : List.Forall₂ L.Like parts parts') :
    L.Like (SqlWriter.clause words parts) (SqlWriter.clause words parts') := by
  rcases h with _ | ⟨hfirst, hrest⟩
  · exact Like.empty
  · exact (Like.words hwords).append (Like.commas (.cons hfirst hrest))

/-- The conditions of a query and of its earlier phases are written alike. -/
theorem bothConditions_rel {f f' p p' : Option String} (hf : Option.Rel L.Enclosed f f')
    (hp : Option.Rel L.Enclosed p p') :
    Option.Rel L.Enclosed (SqlWriter.bothConditions f p) (SqlWriter.bothConditions f' p') := by
  rcases hf with hf | _
  · rcases hp with hp | _
    · exact .some (Enclosed.combine .and (.cons hf (.cons hp .nil)))
    · exact .some hf
  · exact hp

theorem Like.whereClause {c c' : Option String} (h : Option.Rel L.Enclosed c c') :
    L.Like (SqlWriter.whereClause c) (SqlWriter.whereClause c') := by
  rcases h with @⟨sql, sql', h⟩ | _
  · have hempty := h.like.eq_empty_iff
    unfold SqlWriter.whereClause
    simp only [hempty]
    split_ifs
    · exact Like.empty
    · have hwhere : L.Like " WHERE " " WHERE " := Like.words fun _ => rfl
      exact hwhere.append h.like
  · exact Like.empty

theorem Like.selection {entity : String} (hentity : Spelled L.plain entity) (distinct fixed : Bool)
    (h : List.Forall₂ L.Like parts parts') :
    L.Like (SqlWriter.selection entity distinct fixed parts)
      (SqlWriter.selection entity distinct fixed parts') := by
  have hselect : L.Like "SELECT " "SELECT " := Like.words fun _ => rfl
  have hdistinct : L.Like (if distinct then "DISTINCT " else "")
      (if distinct then "DISTINCT " else "") := by
    refine Like.words fun _ => ?_
    cases distinct <;> rfl
  have hfrom : L.Like " FROM " " FROM " := Like.words fun _ => rfl
  unfold SqlWriter.selection
  cases fixed
  · exact (((hselect.append hdistinct).append (Like.commas h)).append hfrom).append
      (Like.of_spelled hentity)
  · refine Like.append (fun n => ?_) (Like.of_spelled hentity)
    simp only [String.toList_append]
    exact ((Alike.of_brackets rfl).append (Like.commas h (n + 1))).append (Alike.of_brackets rfl)

theorem Like.joinColumn {entity column : String} (hentity : Spelled L.plain entity)
    (hcolumn : Spelled L.plain column) :
    L.Like (SqlWriter.joinColumn entity column) (SqlWriter.joinColumn entity column) := by
  unfold SqlWriter.joinColumn
  split_ifs
  · have hpoint : L.Like "." "." := Like.words fun _ => rfl
    exact ((Like.of_spelled hentity).append hpoint).append (Like.of_spelled hcolumn)
  · exact Like.of_spelled hcolumn

theorem like_joinEquations {left right : JoinSide}
    (hleft : (Law.spelled L.plain).side left) (hright : (Law.spelled L.plain).side right) :
    List.Forall₂ L.Like (SqlWriter.joinEquations left right)
      (SqlWriter.joinEquations left right) := by
  refine List.forall₂_same.mpr fun sql hsql => ?_
  obtain ⟨⟨l, r⟩, hcolumns, rfl⟩ := List.mem_map.mp hsql
  have hequals : L.Like "=" "=" := Like.words fun _ => rfl
  have hl := Like.joinColumn hleft.1 (hleft.2 l (List.of_mem_zip hcolumns).1)
  have hr := Like.joinColumn hright.1 (hright.2 r (List.of_mem_zip hcolumns).2)
  exact (hl.append hequals).append hr

theorem agree_joinColumns {sides : List JoinSide} (h : ∀ s ∈ sides, (Law.spelled L.plain).side s) :
    Agree L.LikeRefusal L.Like (SqlWriter.joinColumns sides) (SqlWriter.joinColumns sides) := by
  unfold SqlWriter.joinColumns
  split
  · rename_i left right
    split_ifs
    · exact .error (.same _)
    · have hon : L.Like " ON " " ON " := Like.words fun _ => rfl
      have hand : L.Like " AND " " AND " := Like.words fun _ => rfl
      have hequations := like_joinEquations (h left (by simp)) (h right (by simp))
      exact .ok (hon.append (Like.joined hand hequations))
  · exact .error (.same _)

theorem Like.newName : ∀ {label : Option String}, (∀ name ∈ label, Spelled L.plain name) →
    L.Like (SqlWriter.newName label) (SqlWriter.newName label)
  | none, _ => Like.empty
  | some label, h =>
    have has : L.Like " AS " " AS " := Like.words fun _ => rfl
    has.append (Like.of_spelled (h label rfl))

theorem spelled_effectiveLabel {target : JoinTarget} {label : Option String}
    (hlabel : ∀ name ∈ label, Spelled L.plain name) (htarget : target.Obeys (.spelled L.plain)) :
    ∀ name ∈ label <|> target.label?, Spelled L.plain name := by
  rcases label with _ | label
  · rcases target with ⟨_, _, _⟩ | ⟨_, _, _, _, _, _, _, _, _, _, _, _⟩
    · exact htarget.2.1.2
    · exact htarget.2.1
  · exact hlabel

theorem Like.directed (direction : Direction) (h : List.Forall₂ L.Like parts parts') :
    List.Forall₂ L.Like (parts.map fun sql => sql ++ " " ++ direction.sqlWord)
      (parts'.map fun sql => sql ++ " " ++ direction.sqlWord) := by
  have hblank : L.Like " " " " := Like.words fun _ => rfl
  have hword : L.Like direction.sqlWord direction.sqlWord :=
    Like.words fun _ => by cases direction <;> rfl
  rw [List.forall₂_map_left_iff, List.forall₂_map_right_iff]
  exact h.imp fun _ _ hsql => (hsql.append hblank).append hword

theorem like_columns : ∀ {vs : List Assignment}, Assignment.AllObey (.spelled L.plain) vs →
    ∀ column ∈ vs.map Assignment.column, L.Like column column
  | ⟨_, _⟩ :: _, hvs, column, hcolumn => by
    rcases List.mem_cons.mp hcolumn with rfl | hcolumn
    · exact Like.of_spelled hvs.1.1
    · exact like_columns hvs.2 column hcolumn

end Texts

end Likeness

end QueryCompiler
