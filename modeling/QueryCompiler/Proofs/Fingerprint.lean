import QueryCompiler.Proofs.DocumentText
import QueryCompiler.Proofs.SameStatement
import QueryCompiler.Query.Builder

/-!
# Fingerprints as keys

The fingerprint of a query is the digest of its document's text. Documents are written without loss,
since a float that is no number has become null before (`Query.hasNumbers_toJson`), so that queries
of one text have one document and say one statement (`Query.query_eq_of_compact_eq`). With a float
that is no number they may not: its text is that of null, and it is compared with in another way
(`Query.compact_eq_priceIs`).
-/

namespace QueryCompiler

namespace Json

theorem membersHaveNumbers_append {ms ns : List (String × Json)} :
    MembersHaveNumbers (ms ++ ns) ↔ MembersHaveNumbers ms ∧ MembersHaveNumbers ns := by
  simp only [membersHaveNumbers_iff, List.forall_mem_append]

theorem allHaveNumbers_concat {items : List Json} {last : Json} (h : AllHaveNumbers items)
    (hlast : last.HasNumbers) : AllHaveNumbers (items ++ [last]) := by
  rw [allHaveNumbers_iff] at h ⊢
  exact List.forall_mem_append.mpr ⟨h, List.forall_mem_singleton.mpr hlast⟩

theorem membersHaveNumbers_insertMember {key : String} {value : Json} (h : value.HasNumbers)
    {members : List (String × Json)} (hmembers : MembersHaveNumbers members) :
    MembersHaveNumbers (insertMember key value members) := by
  induction members with
  | nil => exact ⟨h, trivial⟩
  | cons member rest ih =>
    unfold insertMember
    split_ifs
    · exact ⟨h, hmembers.2⟩
    · exact ⟨hmembers.1, ih hmembers.2⟩

theorem membersHaveNumbers_foldl : ∀ {members done : List (String × Json)},
    MembersHaveNumbers members → MembersHaveNumbers done →
      MembersHaveNumbers
        (members.foldl (fun done (key, value) => insertMember key value done) done)
  | [], _, _, hdone => hdone
  | (_, _) :: _, _, h, hdone => by
    rw [List.foldl_cons]
    exact membersHaveNumbers_foldl h.2 (membersHaveNumbers_insertMember h.1 hdone)

theorem membersHaveNumbers_distinctMembers {members : List (String × Json)}
    (h : MembersHaveNumbers members) : MembersHaveNumbers (distinctMembers members) :=
  membersHaveNumbers_foldl h trivial

end Json

open Json

theorem Value.hasNumbers_toJson (v : Value) : v.toJson.HasNumbers := by
  cases v with
  | float x =>
    rw [toJson]
    split_ifs with hx
    · exact hx
    · trivial
  | dateTime t => exact ⟨trivial, trivial⟩
  | _ => trivial

theorem JoinSide.hasNumbers_toJson (side : JoinSide) : side.toJson.HasNumbers :=
  ⟨allHaveNumbers_iff.mpr (List.forall_mem_map.mpr fun _ _ => trivial), trivial⟩

theorem hasNumbers_lastItem (tests : List Test) {members : List (String × Json)}
    (h : MembersHaveNumbers members) : (lastItem tests members).HasNumbers := by
  unfold lastItem
  split
  · exact Value.hasNumbers_toJson _
  · exact membersHaveNumbers_distinctMembers h

section Members

variable {key : String} {items : List Json}

theorem membersHaveNumbers_label (label : Option String) :
    MembersHaveNumbers (optionalMember key (label.map .string)) := by
  cases label <;> simp [optionalMember, MembersHaveNumbers, HasNumbers]

theorem membersHaveNumbers_countMember (count : Option UInt64) :
    MembersHaveNumbers (countMember key count) := by
  cases count <;> simp [countMember, optionalMember, MembersHaveNumbers, HasNumbers]

theorem membersHaveNumbers_flagMember (flag : Bool) : MembersHaveNumbers (flagMember key flag) := by
  cases flag <;> simp [flagMember, MembersHaveNumbers, HasNumbers]

theorem membersHaveNumbers_listMember (h : AllHaveNumbers items) :
    MembersHaveNumbers (listMember key items) := by
  unfold listMember
  split_ifs
  · trivial
  · exact ⟨h, trivial⟩

theorem hasNumbers_oneOrAll (h : AllHaveNumbers items) : (oneOrAll items).HasNumbers := by
  unfold oneOrAll
  split
  · exact h.1
  · exact h

theorem membersHaveNumbers_itemsMember (h : AllHaveNumbers items) :
    MembersHaveNumbers (itemsMember key items) := by
  unfold itemsMember
  split_ifs
  · trivial
  · exact ⟨hasNumbers_oneOrAll h, trivial⟩

end Members

mutual

theorem Field.hasNumbers_toJson : ∀ f : Field, f.toJson.HasNumbers
  | .name _ => ⟨trivial, trivial⟩
  | .qualified _ _ => ⟨trivial, trivial⟩
  | .labelled _ _ => ⟨trivial, trivial⟩
  | .aggregate _ _ _ => ⟨⟨trivial, trivial⟩, trivial⟩
  | .function _ _ args => ⟨⟨Operand.allHaveNumbers_toJsonAll args, trivial⟩, trivial⟩
  | .constant v none => ⟨v.hasNumbers_toJson, trivial⟩
  | .constant v (some _) => ⟨⟨v.hasNumbers_toJson, trivial⟩, trivial⟩

theorem Field.allHaveNumbers_toJsonAll : ∀ fs : List Field, AllHaveNumbers (Field.toJsonAll fs)
  | [] => trivial
  | f :: rest => ⟨Field.hasNumbers_toJson f, Field.allHaveNumbers_toJsonAll rest⟩

theorem Operand.hasNumbers_toJson : ∀ x : Operand, x.toJson.HasNumbers
  | .value v => v.hasNumbers_toJson
  | .field f => Field.hasNumbers_toJson f
  | .list items => Operand.allHaveNumbers_toJsonAll items
  | .query q => Query.hasNumbers_toJson q

theorem Operand.allHaveNumbers_toJsonAll :
    ∀ xs : List Operand, AllHaveNumbers (Operand.toJsonAll xs)
  | [] => trivial
  | x :: rest => ⟨Operand.hasNumbers_toJson x, Operand.allHaveNumbers_toJsonAll rest⟩

theorem Test.membersHaveNumbers_toMembers :
    ∀ ts : List Test, MembersHaveNumbers (Test.toMembers ts)
  | [] => trivial
  | ⟨_, x⟩ :: rest => ⟨Operand.hasNumbers_toJson x, Test.membersHaveNumbers_toMembers rest⟩

theorem Filter.hasNumbers_toJson : ∀ f : Filter, f.toJson.HasNumbers
  | .logical _ operands => ⟨Filter.allHaveNumbers_toJsonAll operands, trivial⟩
  | .compare _ ⟨_, x⟩ => ⟨⟨Operand.hasNumbers_toJson x, trivial⟩, trivial⟩
  | .function _ _ args tests =>
    ⟨⟨allHaveNumbers_concat (Operand.allHaveNumbers_toJsonAll args)
      (hasNumbers_lastItem tests (Test.membersHaveNumbers_toMembers tests)), trivial⟩, trivial⟩

theorem Filter.allHaveNumbers_toJsonAll : ∀ fs : List Filter, AllHaveNumbers (Filter.toJsonAll fs)
  | [] => trivial
  | f :: rest => ⟨Filter.hasNumbers_toJson f, Filter.allHaveNumbers_toJsonAll rest⟩

theorem Filter.membersHaveNumbers_toMembers (key : String) :
    ∀ f : Option Filter, MembersHaveNumbers (Filter.toMembers key f)
  | none => trivial
  | some f => ⟨Filter.hasNumbers_toJson f, trivial⟩

theorem Entity.hasNumbers_toJson : ∀ e : Entity, e.toJson.HasNumbers
  | ⟨_, fs, none⟩ => ⟨Field.allHaveNumbers_toJsonAll fs, trivial⟩
  | ⟨_, fs, some label⟩ =>
    membersHaveNumbers_insertMember (show (Json.string label).HasNumbers from trivial)
      ⟨Field.allHaveNumbers_toJsonAll fs, trivial⟩

theorem Assignment.membersHaveNumbers_toMembers :
    ∀ vs : List Assignment, MembersHaveNumbers (Assignment.toMembers vs)
  | [] => trivial
  | ⟨_, x⟩ :: rest => ⟨Operand.hasNumbers_toJson x, Assignment.membersHaveNumbers_toMembers rest⟩

theorem Statement.membersHaveNumbers_toMembers :
    ∀ s : Option Statement, MembersHaveNumbers (Statement.toMembers s)
  | none => trivial
  | some (.select _ fs) => ⟨⟨Field.allHaveNumbers_toJsonAll fs, trivial⟩, trivial⟩
  | some (.insert _ vs) => ⟨⟨Assignment.membersHaveNumbers_toMembers vs, trivial⟩, trivial⟩
  | some (.update _ vs) => ⟨⟨Assignment.membersHaveNumbers_toMembers vs, trivial⟩, trivial⟩
  | some (.delete _) => ⟨trivial, trivial⟩

theorem JoinTarget.hasNumbers_toJson : ∀ t : JoinTarget, t.toJson.HasNumbers
  | .entity e => Entity.hasNumbers_toJson e
  | .query q => Query.hasNumbers_toJson q

theorem JoinCondition.hasNumbers_toJson : ∀ c : JoinCondition, c.toJson.HasNumbers
  | .columns _ =>
    allHaveNumbers_iff.mpr (List.forall_mem_map.mpr fun side _ => side.hasNumbers_toJson)
  | .filter f => Filter.hasNumbers_toJson f

theorem Join.allHaveNumbers_toJsonAll : ∀ js : List Join, AllHaveNumbers (Join.toJsonAll js)
  | [] => trivial
  | ⟨t, c, label⟩ :: rest =>
    ⟨⟨JoinTarget.hasNumbers_toJson t, JoinCondition.hasNumbers_toJson c,
      membersHaveNumbers_label label⟩, Join.allHaveNumbers_toJsonAll rest⟩

theorem Order.allHaveNumbers_toJsonAll : ∀ os : List Order, AllHaveNumbers (Order.toJsonAll os)
  | [] => trivial
  | ⟨_, fs⟩ :: rest =>
    ⟨⟨hasNumbers_oneOrAll (Field.allHaveNumbers_toJsonAll fs), trivial⟩,
      Order.allHaveNumbers_toJsonAll rest⟩

/-- No document holds a float that is not a number. -/
theorem Query.hasNumbers_toJson : ∀ q : Query, q.toJson.HasNumbers
  | ⟨statement, joins, filter, prepared, orders, groups, distinct, fixed, skip, take, label,
      _⟩ => by
    rw [Query.toJson, HasNumbers]
    simp only [membersHaveNumbers_append, and_assoc]
    exact ⟨Statement.membersHaveNumbers_toMembers statement,
      membersHaveNumbers_itemsMember (Join.allHaveNumbers_toJsonAll joins),
      Filter.membersHaveNumbers_toMembers _ filter,
      Filter.membersHaveNumbers_toMembers _ prepared,
      membersHaveNumbers_listMember (Order.allHaveNumbers_toJsonAll orders),
      membersHaveNumbers_listMember (Field.allHaveNumbers_toJsonAll groups),
      membersHaveNumbers_flagMember distinct, membersHaveNumbers_flagMember fixed,
      membersHaveNumbers_countMember skip, membersHaveNumbers_countMember take,
      membersHaveNumbers_label label⟩

end

/-- Queries whose documents have one text, which is what the fingerprint is made of, say one
statement. -/
theorem Query.query_eq_of_compact_eq {q q' : Query} (h : q.Obeys .unmistakable)
    (h' : q'.Obeys .unmistakable) (heq : q.toJson.compact = q'.toJson.compact) :
    SqlWriter.standard.query q = SqlWriter.standard.query q' :=
  SqlWriter.query_eq q h h' (compact_injective q.hasNumbers_toJson q'.hasNumbers_toJson heq)

/-- The orders of one instant, said to the millisecond, with a field that waits for its
comparison. -/
def roundedOrders : Query :=
  { instantOrders.mapValues Value.truncated with staged := { field := some "id" } }

theorem Query.query_eq_roundedOrders : instantOrders.toJson.compact = roundedOrders.toJson.compact ∧
    SqlWriter.standard.query instantOrders = SqlWriter.standard.query roundedOrders := by
  have hinstant : instantOrders.Obeys .unmistakable :=
    ⟨trivial, ⟨trivial, trivial, trivial⟩, trivial, ⟨trivial, trivial, trivial⟩, trivial, trivial,
      trivial, trivial, trivial⟩
  have hrounded : roundedOrders.Obeys .unmistakable :=
    ⟨trivial, ⟨trivial, trivial, trivial⟩, trivial, ⟨trivial, trivial, trivial⟩, trivial, trivial,
      trivial, trivial, trivial⟩
  have htext : instantOrders.toJson.compact = roundedOrders.toJson.compact := by rfl
  exact ⟨htext, query_eq_of_compact_eq hinstant hrounded htext⟩

/-- The condition that a price equals a literal. -/
def priceIs (v : Value) : Query :=
  (Query.ofField (.select "price")).run [.predicate (.compare .eq (.value v))]

/-- A float that is no number is written as null, and no statement asks whether it is null. -/
theorem Query.compact_eq_priceIs :
    (priceIs (.float (0 / 0))).toJson.compact = (priceIs .null).toJson.compact ∧
      SqlWriter.standard.query (priceIs (.float (0 / 0))) = .ok "(price=NULL)" ∧
        SqlWriter.standard.query (priceIs .null) = .ok "(price IS NULL)" := by
  refine ⟨?_, ?_, ?_⟩
  · rfl
  · rfl
  · rfl

end QueryCompiler
