import QueryCompiler.Proofs.Dispatch

/-!
# The entries of a query's document

A member of a query's document can be read by itself, as an entry (`Query.Entry.ofMember`), which
then takes its place in the query (`Query.sameResult_ofMember`). Entries with different keys are put
into a query in any order (`Query.put_comm`), and every entry that was put there is there in the end
(`Query.isIn_ofMembers`).
-/

namespace QueryCompiler

/-- What one member of a query's document says. -/
inductive Query.Entry
  | statement (s : Statement)
  | joins (joins : List Join)
  | filter (filter : Option Filter)
  | prepared (filter : Option Filter)
  | orders (orders : List Order)
  | groups (fields : List Field)
  | distinct (flag : Bool)
  | fixed (flag : Bool)
  | skip (count : Option UInt64)
  | take (count : Option UInt64)
  | label (name : String)

namespace Query.Entry

/-- The key under which the entry stands. -/
def key : Entry → String
  | statement s => s.key
  | joins _ => "$expand"
  | filter _ => "$where"
  | prepared _ => "$prepared"
  | orders _ => "$order"
  | groups _ => "$group"
  | distinct _ => "$distinct"
  | fixed _ => "$fixed"
  | skip _ => "$skip"
  | take _ => "$take"
  | label _ => "$alias"

/-- The entry that a member writes. -/
def ofMember (key : String) (value : Json) : Except QueryError Entry :=
  if key = "$select" then
    statement <$> (fun entity => .select entity.name entity.fields) <$> Entity.ofJson value
  else if key = "$insert" then
    statement <$> (fun table => .insert table.1 table.2) <$> Assignment.ofJson key value
  else if key = "$update" then
    statement <$> (fun table => .update table.1 table.2) <$> Assignment.ofJson key value
  else if key = "$delete" then statement <$> .delete <$> value.text key
  else if key = "$expand" then
    match value with
    | .array items => joins <$> Join.ofJsonAll items
    | other => (fun join => joins [join]) <$> Join.ofJson other
  else if key = "$where" then
    match value with
    | .null => .ok (filter none)
    | other => (fun f => filter (some f)) <$> Filter.ofJson other
  else if key = "$prepared" then
    match value with
    | .null => .ok (prepared none)
    | other => (fun f => prepared (some f)) <$> Filter.ofJson other
  else if key = "$order" then
    match value with
    | .array items => orders <$> Order.ofJsonAll items
    | other => .error (.notArray key other)
  else if key = "$group" then
    match value with
    | .array items => groups <$> Field.ofJsonAll items
    | other => (fun field => groups [field]) <$> Field.ofJson other
  else if key = "$distinct" then distinct <$> value.flag key
  else if key = "$fixed" then fixed <$> value.flag key
  else if key = "$skip" then skip <$> value.count? key
  else if key = "$take" then take <$> value.count? key
  else if key = "$alias" then label <$> value.text key
  else if isReserved key then .error (.unknownOperator key)
  else .error (.unexpectedKey key)

/-- The entry stands in the query. -/
def IsIn (q : Query) : Entry → Prop
  | statement s => q.statement = some s
  | joins js => q.joins = js
  | filter f => ∀ g, f = some g → q.filter = some g
  | prepared f => ∀ g, f = some g → q.prepared = some g
  | orders os => q.orders = os
  | groups fields => q.groups = fields
  | distinct flag => q.distinct = flag
  | fixed flag => q.fixed = flag
  | skip count => q.skip = count
  | take count => q.take = count
  | label name => q.label = some name

end Query.Entry

namespace Query

/-- The query with an entry in its place, unless that is a second statement. -/
def put (q : Query) : Entry → Except QueryError Query
  | .statement s => q.putStatement s.key fun _ => .ok s
  | .joins joins => .ok { q with joins }
  | .filter none => .ok q
  | .filter (some f) => .ok { q with filter := some f }
  | .prepared none => .ok q
  | .prepared (some f) => .ok { q with prepared := some f }
  | .orders orders => .ok { q with orders }
  | .groups groups => .ok { q with groups }
  | .distinct distinct => .ok { q with distinct }
  | .fixed fixed => .ok { q with fixed }
  | .skip skip => .ok { q with skip }
  | .take take => .ok { q with take }
  | .label name => .ok { q with label := some name }

variable {q q' : Query}

theorem put_statement_of_some {s : Statement} (h : q.statement = some s) (t : Statement) :
    q.put (.statement t) = .error (.twoStatements s.key t.key) := by
  rw [put, putStatement, h]

theorem put_statement_of_none (h : q.statement = none) (s : Statement) :
    q.put (.statement s) = .ok { q with statement := some s } := by
  rw [put, putStatement, h]
  rfl

/-! ## Reading and then putting -/

theorem sameResult_map_put {α : Type} {f : α → Query} {g : α → Entry}
    (h : ∀ x, q.put (g x) = .ok (f x)) (r : Except QueryError α) :
    SameResult (f <$> r) ((g <$> r) >>= q.put) := by
  rcases r with e | x
  · exact .refl _
  · intro y
    rw [show (g <$> (Except.ok x : Except QueryError α)) >>= q.put = q.put (g x) from rfl, h x]
    rfl

theorem sameResult_putStatement {α : Type} {key : String} {f : α → Statement}
    (hkey : ∀ x, (f x).key = key) (r : Except QueryError α) :
    SameResult (q.putStatement key fun _ => f <$> r) ((Entry.statement <$> f <$> r) >>= q.put) := by
  rcases r with e | x
  · rcases hstatement : q.statement with _ | s
    · rw [putStatement, hstatement]
      exact .refl _
    · rw [putStatement, hstatement]
      exact .error _ _
  · intro y
    rw [show (Entry.statement <$> f <$> (Except.ok x : Except QueryError α)) >>= q.put =
      q.put (.statement (f x)) from rfl, put, hkey x]
    rfl

theorem sameResult_ite_put {c : Prop} [Decidable c] {r r' : Except QueryError Query}
    {s s' : Except QueryError Entry} (h : c → SameResult r (s >>= q.put))
    (h' : ¬c → SameResult r' (s' >>= q.put)) :
    SameResult (if c then r else r') ((if c then s else s') >>= q.put) := by
  split_ifs with hc
  · exact h hc
  · exact h' hc

/-- Reading a member into a query is reading it by itself and putting it there. Where there are two
faults, a second statement's value may be looked at first. -/
theorem sameResult_ofMember (q : Query) (key : String) (value : Json) :
    SameResult (q.ofMember (key, value)) (Entry.ofMember key value >>= q.put) := by
  have hlast : ∀ r : Except QueryError Query, (r >>= fun q => q.ofMembers []) = r := fun r =>
    bind_pure r
  unfold ofMember ofMembers Entry.ofMember
  rw [hlast]
  -- One goal for each key, in the order in which the keys are tried.
  repeat' refine sameResult_ite_put (fun h => ?_) fun _ => ?_
  iterate 4
    · refine sameResult_putStatement ?_ _
      exact fun _ => h.symm
  · cases value
    all_goals exact sameResult_map_put (fun _ => rfl) _
  · cases value
    case null => exact .refl _
    all_goals exact sameResult_map_put (fun _ => rfl) _
  · cases value
    case null => exact .refl _
    all_goals exact sameResult_map_put (fun _ => rfl) _
  · cases value
    case array => exact sameResult_map_put (fun _ => rfl) _
    all_goals exact .error _ _
  · cases value
    all_goals exact sameResult_map_put (fun _ => rfl) _
  iterate 5
    · exact sameResult_map_put (fun _ => rfl) _
  · exact .error _ _
  · exact .error _ _

/-- An entry is read for its own key only. -/
theorem Entry.key_ofMember (key : String) (value : Json) :
    Ensures (Entry.ofMember key value) fun entry => entry.key = key := by
  have hstatement : ∀ {r : Except QueryError Statement}, Ensures r (fun s => s.key = key) →
      Ensures (statement <$> r) fun entry => entry.key = key := fun hr => hr.map fun _ hs => hs
  unfold Entry.ofMember
  repeat' refine Ensures.ite (fun h => ?_) fun _ => ?_
  iterate 4
    · exact hstatement ((Ensures.trivial _).map fun _ _ => h.symm)
  · cases value
    all_goals exact (Ensures.trivial _).map fun _ _ => h.symm
  iterate 2
    · cases value
      case null => exact Ensures.ok h.symm
      all_goals exact (Ensures.trivial _).map fun _ _ => h.symm
  · cases value
    case array => exact (Ensures.trivial _).map fun _ _ => h.symm
    all_goals exact Ensures.error _
  · cases value
    all_goals exact (Ensures.trivial _).map fun _ _ => h.symm
  iterate 5
    · exact (Ensures.trivial _).map fun _ _ => h.symm
  · exact Ensures.error _
  · exact Ensures.error _

/-! ## Several entries -/

/-- Of two statements the second is refused, and all other entries have places of their own. -/
theorem put_comm {a b : Entry} (h : a.key ≠ b.key) (q : Query) :
    SameResult (q.put a >>= fun q => q.put b) (q.put b >>= fun q => q.put a) := by
  rcases q with ⟨_ | _, _, _, _, _, _, _, _, _, _, _, _⟩
  all_goals
    rcases a with _ | _ | (_ | _) | (_ | _) | _ | _ | _ | _ | _ | _ | _ <;>
      rcases b with _ | _ | (_ | _) | (_ | _) | _ | _ | _ | _ | _ | _ | _
    all_goals first
      | exact absurd rfl h
      | exact .refl _
      | exact .error _ _

/-- An entry is where it was put. -/
theorem Entry.isIn_put (a : Entry) (q : Query) : Ensures (q.put a) fun q' => a.IsIn q' := by
  cases a with
  | statement s =>
    rcases hstatement : q.statement with _ | t
    · rw [put_statement_of_none hstatement]
      exact Ensures.ok rfl
    · rw [put_statement_of_some hstatement]
      exact Ensures.error _
  | filter f | prepared f =>
    cases f with
    | none => exact Ensures.ok fun _ h => by cases h
    | some f => exact Ensures.ok fun _ h => h
  | _ => exact Ensures.ok rfl

/-- An entry stays where it was put. -/
theorem Entry.IsIn.put {a b : Entry} (ha : a.IsIn q) (h : a.key ≠ b.key) :
    Ensures (q.put b) fun q' => a.IsIn q' := by
  cases b with
  | statement t =>
    rcases hstatement : q.statement with _ | s
    · rw [put_statement_of_none hstatement]
      refine Ensures.ok ?_
      cases a with
      | statement s => cases hstatement.symm.trans ha
      | _ => exact ha
    · rw [put_statement_of_some hstatement]
      exact Ensures.error _
  | filter f | prepared f =>
    cases f with
    | none => exact Ensures.ok ha
    | some f =>
      refine Ensures.ok ?_
      cases a
      all_goals first
        | exact absurd rfl h
        | exact ha
  | _ =>
    refine Ensures.ok ?_
    cases a
    all_goals first
      | exact absurd rfl h
      | exact ha

/-- Every member's entry stands in the query that all of them make. -/
theorem isIn_ofMembers : ∀ {members : List (String × Json)} {q : Query},
    (members.map Prod.fst).Nodup → Ensures (q.ofMembers members) fun q' =>
      (∀ e : Entry, e.IsIn q → e.key ∉ members.map Prod.fst → e.IsIn q') ∧
        ∀ m ∈ members, ∃ e, Entry.ofMember m.1 m.2 = .ok e ∧ e.IsIn q'
  | [], _, _ => Ensures.ok ⟨fun _ he _ => he, nofun⟩
  | (key, value) :: rest, q, hkeys => by
    rw [List.map_cons, List.nodup_cons] at hkeys
    intro q₂ hq₂
    rw [ofMembers_cons] at hq₂
    obtain ⟨q₁, hq₁, hq₂⟩ := exists_of_bind_eq_ok hq₂
    obtain ⟨e, he, hput⟩ := exists_of_bind_eq_ok ((sameResult_ofMember q key value q₁).mp hq₁)
    have hekey := Entry.key_ofMember key value e he
    obtain ⟨hstays, hrest⟩ := isIn_ofMembers hkeys.2 q₂ hq₂
    refine ⟨fun a ha hother => ?_, fun m hm => ?_⟩
    · rw [List.map_cons, List.mem_cons, not_or] at hother
      exact hstays a (ha.put (hekey ▸ hother.1) q₁ hput) hother.2
    · rcases List.mem_cons.mp hm with rfl | hm
      · exact ⟨e, he, hstays e (e.isIn_put q q₁ hput) (hekey ▸ hkeys.1)⟩
      · exact hrest m hm

end Query

end QueryCompiler
