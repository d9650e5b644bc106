import QueryCompiler.Proofs.Dispatch

/-!
# Documents that differ in the order of keys

`Rearranged role j j'`: the document `j'` is `j` with the members of its objects in another order,
at any depth. Two kinds of objects keep their order, which is part of what they say: those that
compare a column with several operands, and those that give the values of columns. Whether an object
is such a one depends on what it is read as, its `Role`.

Here are the relation, what it says about the keys of objects (`Shuffled`), and that literals and
the sides of equi-joins are read alike in every role.
-/

namespace QueryCompiler

open Json (hasKey namesTests namesOperand definesField)

/-- What a value is read as in the place where it stands. -/
inductive Role
  | query
  | entity
  | table
  | values
  | join
  | target
  | filter
  | comparison
  | call
  | tests
  | operand
  | field
  | definition
  | order

namespace Role

/-- What an object is read as where an operand or the last item of a call is expected. -/
def ofOperand (members : List (String × Json)) : Role :=
  if namesTests members then tests
  else if statementKeys.any fun key => hasKey key members then query
  else field

/-- What an object is read as in its role, seeing its keys. -/
def resolve (members : List (String × Json)) : Role → Role
  | operand => ofOperand members
  | comparison => if namesTests members || namesOperand members then ofOperand members else call
  | target => if hasKey "$select" members then query else entity
  | role => role

/-- The role of what stands under a key. -/
def member : Role → String → Role
  | query, key =>
    if key = "$select" then entity
    else if key = "$insert" ∨ key = "$update" then table
    else if key = "$expand" then join
    else if key = "$where" ∨ key = "$prepared" then filter
    else if key = "$order" then order
    else if key = "$group" then field
    else operand
  | join, key => if key = "$entity" then target else if key = "$with" then filter else operand
  | filter, key => if (Connective.ofKey? key).isSome then filter else comparison
  | entity, _ => field
  | order, _ => field
  | field, _ => definition
  | table, _ => values
  | _, _ => operand

/-- The role of an array's items. -/
def item : Role → Role
  | comparison => operand
  | role => role

/-- The order of an object's members is part of what the object says. -/
def isOrdered : Role → Bool
  | tests => true
  | values => true
  | _ => false

end Role

mutual

/-- The second value is the first with the members of objects rearranged, at any depth, but for
objects whose order counts. -/
inductive Rearranged : Role → Json → Json → Prop
  | same (role : Role) (j : Json) : Rearranged role j j
  | array {role : Role} {items items' : List Json} (h : RearrangedItems role.item items items') :
      Rearranged role (.array items) (.array items')
  | object {role : Role} {members inner members' : List (String × Json)}
      (h : RearrangedMembers (role.resolve members) members inner) (hperm : inner.Perm members')
      (hordered : (role.resolve members).isOrdered = true → inner = members') :
      Rearranged role (.object members) (.object members')

/-- The items are rearranged one by one. -/
inductive RearrangedItems : Role → List Json → List Json → Prop
  | nil (role : Role) : RearrangedItems role [] []
  | cons {role : Role} {j j' : Json} {rest rest' : List Json} (h : Rearranged role j j')
      (hrest : RearrangedItems role rest rest') : RearrangedItems role (j :: rest) (j' :: rest')

/-- What stands under the keys is rearranged, and the keys are where they were. -/
inductive RearrangedMembers : Role → List (String × Json) → List (String × Json) → Prop
  | nil (role : Role) : RearrangedMembers role [] []
  | cons {role : Role} {key : String} {j j' : Json} {rest rest' : List (String × Json)}
      (h : Rearranged (role.member key) j j') (hrest : RearrangedMembers role rest rest') :
      RearrangedMembers role ((key, j) :: rest) ((key, j') :: rest')

end

/-- The members of an object are rearranged within and then put into another order, if their order
does not count. -/
def Shuffled (role : Role) (members members' : List (String × Json)) : Prop :=
  ∃ inner, RearrangedMembers role members inner ∧ inner.Perm members' ∧
    (role.isOrdered = true → inner = members')

/-! ## Keys -/

theorem RearrangedMembers.keys_eq {role : Role} : ∀ {members members' : List (String × Json)},
    RearrangedMembers role members members' → members.map Prod.fst = members'.map Prod.fst
  | _, _, .nil _ => rfl
  | _, _, .cons _ hrest => congrArg (List.cons _) hrest.keys_eq

namespace Shuffled

variable {role : Role} {members members' : List (String × Json)}

theorem of_members (h : RearrangedMembers role members members') : Shuffled role members members' :=
  ⟨members', h, .refl _, fun _ => rfl⟩

theorem keys_perm (h : Shuffled role members members') :
    (members.map Prod.fst).Perm (members'.map Prod.fst) := by
  obtain ⟨inner, hinner, hperm, -⟩ := h
  rw [hinner.keys_eq]
  exact hperm.map Prod.fst

theorem members_of_isOrdered (h : Shuffled role members members') (hrole : role.isOrdered = true) :
    RearrangedMembers role members members' := by
  obtain ⟨inner, hinner, -, hordered⟩ := h
  exact hordered hrole ▸ hinner

theorem hasKey_eq (h : Shuffled role members members') (key : String) :
    hasKey key members = hasKey key members' := by
  rw [Bool.eq_iff_iff, Json.hasKey_eq_true, Json.hasKey_eq_true, h.keys_perm.mem_iff]

theorem namesTests_eq (h : Shuffled role members members') :
    namesTests members = namesTests members' := by
  have hkeys : ∀ members : List (String × Json), namesTests members =
      (members.map Prod.fst).all fun key => (ComparisonOp.ofKey? key).isSome := fun _ => by
    rw [List.all_map]
    rfl
  rw [hkeys, hkeys, Bool.eq_iff_iff, List.all_eq_true, List.all_eq_true]
  exact forall_congr' fun key => imp_congr_left h.keys_perm.mem_iff

theorem isEmpty_eq (h : Shuffled role members members') : members.isEmpty = members'.isEmpty := by
  have hlength : members.length = members'.length := by
    simpa using h.keys_perm.length_eq
  rw [Bool.eq_iff_iff, List.isEmpty_iff_length_eq_zero, List.isEmpty_iff_length_eq_zero, hlength]

/-- Where there is one member, or none, there is no other order. -/
theorem cases_length (h : Shuffled role members members') :
    (members = [] ∧ members' = []) ∨
      (∃ key j j', members = [(key, j)] ∧ members' = [(key, j')] ∧
        Rearranged (role.member key) j j') ∨
      (∃ a b rest, members = a :: b :: rest) ∧ ∃ a b rest, members' = a :: b :: rest := by
  obtain ⟨inner, hinner, hperm, -⟩ := h
  rcases hinner with _ | @⟨_, key, j, j', rest, rest', hj, hrest⟩
  · exact .inl ⟨rfl, List.nil_perm.mp hperm⟩
  · rcases hrest with _ | ⟨_, hrest⟩
    · exact .inr (.inl ⟨key, j, j', rfl, (List.singleton_perm.mp hperm).symm, hj⟩)
    · refine .inr (.inr ⟨⟨_, _, _, rfl⟩, ?_⟩)
      rcases members' with _ | ⟨a, _ | ⟨b, rest⟩⟩
      · cases hperm.length_eq
      · cases hperm.length_eq
      · exact ⟨_, _, _, rfl⟩

/-- What is read from objects with one member only is read alike, if it is from these. -/
theorem sameResult_single {ε α : Type} (h : Shuffled role members members')
    (read : List (String × Json) → Except ε α)
    (hmore : ∀ a b rest x, read (a :: b :: rest) ≠ .ok x)
    (hone : ∀ key j j', members = [(key, j)] → Rearranged (role.member key) j j' →
      SameResult (read [(key, j)]) (read [(key, j')])) :
    SameResult (read members) (read members') := by
  rcases h.cases_length with ⟨rfl, rfl⟩ | ⟨key, j, j', hmembers, rfl, hj⟩ |
    ⟨⟨a, b, rest, rfl⟩, a', b', rest', rfl⟩
  · exact .refl _
  · have hsame := hone key j j' hmembers hj
    rw [← hmembers] at hsame
    exact hsame
  · exact .of_ne_ok (hmore a b rest) (hmore a' b' rest')

theorem namesOperand_eq (h : Shuffled role members members') :
    namesOperand members = namesOperand members' := by
  rcases h.cases_length with ⟨rfl, rfl⟩ | ⟨key, j, j', rfl, rfl, -⟩ |
    ⟨⟨a, b, rest, rfl⟩, a', b', rest', rfl⟩
  · rfl
  · rfl
  · rfl

theorem definesField_more (a b : String × Json) (rest : List (String × Json)) :
    definesField (a :: b :: rest) = false := by
  rcases a with ⟨label, j⟩
  cases j with
  | object members =>
    rcases members with _ | ⟨_, _ | _⟩
    all_goals rfl
  | _ => rfl

theorem definesField_eq (h : Shuffled role members members') :
    definesField members = definesField members' := by
  rcases h.cases_length with ⟨rfl, rfl⟩ | ⟨label, j, j', rfl, rfl, hj⟩ |
    ⟨⟨a, b, rest, rfl⟩, a', b', rest', rfl⟩
  · rfl
  · cases hj with
    | same => rfl
    | array _ => rfl
    | object hinner hperm hordered =>
      rcases cases_length ⟨_, hinner, hperm, hordered⟩ with ⟨rfl, rfl⟩ |
        ⟨key, j, j', rfl, rfl, -⟩ | ⟨⟨a, b, rest, rfl⟩, a', b', rest', rfl⟩
      · rfl
      · rfl
      · rfl
  · rw [definesField_more, definesField_more]

end Shuffled

/-! ## Lists -/

/-- What is read from the items of an array is read alike, if it is from each of them. -/
theorem RearrangedItems.sameResult {role : Role} {ε α : Type} {read : Json → Except ε α}
    {readAll : List Json → Except ε (List α)}
    (hcons : ∀ j rest, readAll (j :: rest) =
      read j >>= fun x => readAll rest >>= fun xs => pure (x :: xs)) :
    ∀ {items items' : List Json}, RearrangedItems role items items' →
      (∀ j ∈ items, ∀ j', Rearranged role j j' → SameResult (read j) (read j')) →
        SameResult (readAll items) (readAll items')
  | _, _, .nil _, _ => .refl _
  | _, _, .cons hj hrest, hread => by
    rw [hcons, hcons]
    exact (hread _ List.mem_cons_self _ hj).bind fun x _ =>
      (hrest.sameResult hcons fun j hj => hread j (List.mem_cons_of_mem _ hj)).bind fun _ _ =>
        .refl _

theorem RearrangedItems.sameResult_mapM {role : Role} {ε α : Type} {read : Json → Except ε α}
    {items items' : List Json} (h : RearrangedItems role items items')
    (hread : ∀ j j', Rearranged role j j' → SameResult (read j) (read j')) :
    SameResult (items.mapM read) (items'.mapM read) :=
  h.sameResult (fun _ _ => List.mapM_cons) fun j _ => hread j

/-! ## Objects -/

/-- What is read from objects, and not from arrays, is read alike, if it is from shuffled
objects. -/
theorem Rearranged.sameResult_object {role : Role} {j j' : Json} {ε α : Type}
    {read : Json → Except ε α} (h : Rearranged role j j')
    (harray : ∀ items x, read (.array items) ≠ .ok x)
    (hobject : ∀ members members', j = .object members →
      Shuffled (role.resolve members) members members' →
        SameResult (read (.object members)) (read (.object members'))) :
    SameResult (read j) (read j') := by
  cases h with
  | same => exact .refl _
  | array _ => exact .of_ne_ok (harray _) (harray _)
  | object hinner hperm hordered => exact hobject _ _ rfl ⟨_, hinner, hperm, hordered⟩

/-! ## Literals -/

section Scalars

variable {role : Role} {j j' : Json}

/-- What is read from neither arrays nor objects is not affected. -/
theorem Rearranged.sameResult_scalar {ε α : Type} {read : Json → Except ε α}
    (harray : ∀ items x, read (.array items) ≠ .ok x)
    (hobject : ∀ members x, read (.object members) ≠ .ok x) (h : Rearranged role j j') :
    SameResult (read j) (read j') :=
  h.sameResult_object harray fun _ _ _ _ => .of_ne_ok (hobject _) (hobject _)

theorem Rearranged.sameResult_text (what : String) (h : Rearranged role j j') :
    SameResult (j.text what) (j'.text what) :=
  h.sameResult_scalar (fun _ _ => nofun) fun _ _ => nofun

theorem Rearranged.sameResult_flag (key : String) (h : Rearranged role j j') :
    SameResult (j.flag key) (j'.flag key) :=
  h.sameResult_scalar (fun _ _ => nofun) fun _ _ => nofun

theorem Rearranged.sameResult_count (key : String) (h : Rearranged role j j') :
    SameResult (j.count? key) (j'.count? key) :=
  h.sameResult_scalar (fun _ _ => nofun) fun _ _ => nofun

/-- A date is the only literal that is an object, and that has one member. -/
theorem Shuffled.sameResult_value {members members' : List (String × Json)}
    (h : Shuffled role members members') :
    SameResult (Value.ofJson (.object members)) (Value.ofJson (.object members')) := by
  refine h.sameResult_single (fun members => Value.ofJson (.object members)) ?_ ?_
  · rintro ⟨key, j⟩ b rest x h
    rw [Value.ofJson] at h
    · cases h
    all_goals simp
  · intro key j j' _ hj
    by_cases hkey : key = "$date"
    · subst hkey
      exact (hj.sameResult_text "$date").bind fun _ _ => .refl _
    · have hother : ∀ j, Value.ofJson (.object [(key, j)]) =
          .error (.notLiteral (.object [(key, j)])) := fun j => by
        rw [Value.ofJson]
        all_goals simp [hkey]
      rw [hother, hother]
      exact .error _ _

theorem Rearranged.sameResult_value (h : Rearranged role j j') :
    SameResult (Value.ofJson j) (Value.ofJson j') :=
  h.sameResult_object (fun _ _ => nofun) fun _ _ _ h => h.sameResult_value

theorem Rearranged.sameResult_columns (what : String) (h : Rearranged role j j') :
    SameResult (j.oneOrMany.mapM (Json.text what)) (j'.oneOrMany.mapM (Json.text what)) := by
  have hone : ∀ members x, [Json.object members].mapM (Json.text what) ≠ .ok x := fun _ _ => nofun
  cases h with
  | same => exact .refl _
  | array hitems => exact hitems.sameResult_mapM fun _ _ hj => hj.sameResult_text what
  | object _ _ _ => exact .of_ne_ok (hone _) (hone _)

theorem Rearranged.sameResult_side (h : Rearranged role j j') :
    SameResult (JoinSide.ofJson j) (JoinSide.ofJson j') := by
  refine h.sameResult_object (fun _ _ => nofun) fun members members' _ h => ?_
  refine h.sameResult_single (fun members => JoinSide.ofJson (.object members))
    (fun _ _ _ _ => nofun) ?_
  exact fun entity j j' _ hj => (hj.sameResult_columns _).bind fun _ _ => .refl _

end Scalars

end QueryCompiler
