import Mathlib.Data.List.Infix
import Mathlib.Tactic.SplitIfs
import QueryCompiler.Query.Field

/-!
# Qualifying again

A field is qualified with a table, and then with another one. For aggregates only the last table
counts, and the column keeps its name. For plain columns that is so exactly if no point stands
inside the column's own name (`Field.requalifies_iff`): what stands before such a point is taken for
a table once more, and lost.
-/

namespace QueryCompiler

open Text (splitFirst?)

/-! ## Names with points -/

theorem splitFirst?_eq_none_iff {c : Char} {cs : List Char} : splitFirst? c cs = none ↔ c ∉ cs := by
  induction cs with
  | nil => simp [splitFirst?]
  | cons d cs ih =>
    rw [splitFirst?]
    split_ifs with h
    · simp [h]
    · simp [ih, Ne.symm h]

theorem splitFirst?_of_not_mem {c : Char} {before : List Char} (h : c ∉ before)
    (after : List Char) : splitFirst? c (before ++ c :: after) = some (before, after) := by
  induction before with
  | nil => simp [splitFirst?]
  | cons d before ih =>
    obtain ⟨hd, hbefore⟩ := not_or.mp fun hmem => h (List.mem_cons.mpr hmem)
    simp [splitFirst?, Ne.symm hd, ih hbefore]

/-- The name behind a table and a point. -/
theorem bareName_qualified {entity column : String} (hentity : '.' ∉ entity.toList)
    (hcolumn : column ≠ "") : bareName (entity ++ "." ++ column) = column := by
  have htext : (entity ++ "." ++ column).toList = entity.toList ++ '.' :: column.toList := by simp
  have hne : column.toList ≠ [] := fun h => hcolumn (String.toList_inj.mp h)
  rw [bareName, htext, splitFirst?_of_not_mem hentity]
  simp [hne]

theorem bareName_ne_empty {text : String} (h : text ≠ "") : bareName text ≠ "" := by
  unfold bareName
  split
  · split_ifs with hcolumn
    · exact h
    · rwa [ne_eq, String.ofList_eq_empty_iff]
  · exact h

/-- A name has no table in front of it if there is no point in it, but for its last character. -/
theorem bareName_eq_self_iff {text : String} :
    bareName text = text ↔ '.' ∉ text.toList.dropLast := by
  unfold bareName
  split
  · rename_i before after hsplit
    obtain ⟨htext, hbefore⟩ := Text.splitFirst?_append hsplit
    split_ifs with hafter
    · simp [htext, hafter, hbefore]
    · have hlonger : String.ofList after ≠ text := by
        intro heq
        rw [← heq, String.toList_ofList] at htext
        have hlength := congrArg List.length htext
        simp only [List.length_append, List.length_cons] at hlength
        omega
      have hpoint : '.' ∈ text.toList.dropLast := by
        rw [htext, List.dropLast_append_of_ne_nil (List.cons_ne_nil _ _),
          List.dropLast_cons_of_ne_nil hafter]
        simp
      exact iff_of_false hlonger fun h => h hpoint
  · rename_i hnone
    exact iff_of_true rfl fun h => splitFirst?_eq_none_iff.mp hnone (List.mem_of_mem_dropLast h)

namespace Field

/-! ## Qualifying twice -/

/-- The field can be qualified with the first table. That leaves the column's name, and does not
show any more when the field is qualified with the second table. -/
def Requalifies (f : Field) (first second : String) : Prop :=
  ∃ g, f.qualify first = .ok g ∧ g.columnName? = f.columnName? ∧ g.qualify second = f.qualify second

variable {text first : String}

theorem requalifies_aggregateOf (aggregate : Aggregate) (htext : text ≠ "")
    (hfirst : '.' ∉ first.toList) (second : String) :
    (aggregateOf aggregate text).Requalifies first second := by
  have hbare : bareName (first ++ "." ++ bareName text) = bareName text :=
    bareName_qualified hfirst (bareName_ne_empty htext)
  refine ⟨_, rfl, ?_, ?_⟩
  · exact congrArg some hbare
  · simp only [aggregateOf, qualify, hbare]

theorem requalifies_name_iff (second : String) :
    (name text).Requalifies first second ↔ bareName (bareName text) = bareName text := by
  simp [Requalifies, qualify, columnName?]

theorem requalifies_qualified_iff (entity second : String) :
    (qualified entity text).Requalifies first second ↔ bareName text = text := by
  simp only [Requalifies, qualify, columnName?, Except.ok.injEq, exists_eq_left', Option.some.injEq,
    qualified.injEq, true_and, and_iff_left_iff_imp]
  intro h
  rw [h, h]

theorem requalifies_select_iff (second : String) :
    ∃ column, (select text).columnName? = some column ∧
      ((select text).Requalifies first second ↔ '.' ∉ column.toList.dropLast) := by
  unfold select
  split
  · split_ifs
    · exact ⟨_, rfl, (requalifies_name_iff second).trans bareName_eq_self_iff⟩
    · exact ⟨_, rfl, (requalifies_qualified_iff _ second).trans bareName_eq_self_iff⟩
  · exact ⟨_, rfl, (requalifies_name_iff second).trans bareName_eq_self_iff⟩

theorem exists_qualify_select : ∃ g, (select text).qualify first = .ok g := by
  unfold select
  split
  · split_ifs
    · exact ⟨_, rfl⟩
    · exact ⟨_, rfl⟩
  · exact ⟨_, rfl⟩

/-- Every field made from a text can be qualified. Of aggregates only the table changes. Of a plain
column it does exactly if there is no point in the column's own name, but for its last character. -/
theorem requalifies_iff (htext : text ≠ "") (hfirst : '.' ∉ first.toList) (second : String) :
    (∀ aggregate, (aggregateOf aggregate text).Requalifies first second) ∧
      (∃ g, (select text).qualify first = .ok g) ∧
      ∃ column, (select text).columnName? = some column ∧
        ((select text).Requalifies first second ↔ '.' ∉ column.toList.dropLast) :=
  ⟨fun aggregate => requalifies_aggregateOf aggregate htext hfirst second, exists_qualify_select,
    requalifies_select_iff second⟩

/-- A column with a table in front of it. -/
theorem requalifies_ordersId :
    ("orders.id" ≠ "" ∧ '.' ∉ "o".toList) ∧
      (∀ aggregate, (aggregateOf aggregate "orders.id").Requalifies "o" "p") ∧
      (∃ g, (select "orders.id").qualify "o" = .ok g) ∧
      ∃ column, (select "orders.id").columnName? = some column ∧
        ((select "orders.id").Requalifies "o" "p" ↔ '.' ∉ column.toList.dropLast) :=
  ⟨⟨by decide, by decide⟩, requalifies_iff (by decide) (by decide) "p"⟩

/-- A column with a schema and a table in front of it loses the table together with the schema. -/
theorem not_requalifies_shopOrdersId : ¬ (select "shop.orders.id").Requalifies "o" "p" := by
  rintro ⟨g, hg, hname, -⟩
  have hselect : select "shop.orders.id" = .qualified "shop" "orders.id" := rfl
  rw [hselect] at hg hname
  cases hg
  revert hname
  decide

end Field

end QueryCompiler
