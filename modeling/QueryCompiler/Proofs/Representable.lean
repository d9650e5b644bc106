import QueryCompiler.Document.Reading
import QueryCompiler.Document.Writing
import QueryCompiler.Proofs.Traversal

/-!
# What a document can represent

Reading a document never gives some queries: one whose table has a reserved name, say, or whose
function bears the name of a comparison. `Law.decoded` asks for what every query has that was read
(but for the names of its tables, `Law.plainTables`), and `Law.representable` for what a query needs
to be read back as it was.
-/

namespace QueryCompiler

/-- Keys that do not name a function where a computed field is expected. -/
def Field.otherKeys : List String := ["value", "count", "min", "max", "avg", "sum"]

/-- Keys that do not name a function where a condition on a field is expected. -/
def Filter.otherKeys : List String :=
  ["eq", "ne", "gt", "gte", "lt", "lte", "in", "nin", "name", "date", "value", "select", "insert",
    "update", "delete"]

/-- A float is a number. -/
def Value.IsFinite : Value → Prop
  | .float x => x.isFinite = true
  | _ => True

/-- A date has no fraction of a millisecond. -/
def Value.IsWhole : Value → Prop
  | .dateTime t => t.nanosecond % 1000000 = 0
  | _ => True

/-- The name of the field is cut where reading would cut it, its alias is not reserved, and its
function is not taken for something else. -/
def Field.IsReadable : Field → Prop
  | .name text => Field.select text = .name text
  | .qualified entity text => Field.select (entity ++ "." ++ text) = .qualified entity text
  | .labelled label _ => isReserved label = false
  | .aggregate label _ _ => isReserved label = false
  | .function label func _ => isReserved label = false ∧ func ≠ "" ∧ func ∉ Field.otherKeys
  | .constant _ label => ∀ text, label = some text → isReserved text = false

/-- A query in place of an operand has a statement. -/
def Operand.IsReadable : Operand → Prop
  | .query q => q.statement.isSome = true
  | _ => True

/-- The field that the filter is about is not reserved, its function is not taken for something
else, and no two tests of a function have one operator. -/
def Filter.IsReadable : Filter → Prop
  | .logical _ _ => True
  | .compare field _ => isReserved field = false
  | .function field func _ tests =>
    isReserved field = false ∧ func ≠ "" ∧ func ∉ Filter.otherKeys ∧ (tests.map Test.op).Nodup

/-- A joined query selects. -/
def JoinTarget.IsReadable : JoinTarget → Prop
  | .query q => q.isSelect = true
  | .entity _ => True

/-- The selected table's name is not reserved. -/
def Statement.IsPlain : Statement → Prop
  | .select entity _ => isReserved entity = false
  | _ => True

/-- Names of selected and of joined tables are not reserved. -/
def Law.plainTables : Law where
  entity e := isReserved e.name = false
  statement := Statement.IsPlain

/-- Dates have no fractions of milliseconds. -/
def Law.wholeDates : Law where
  value := Value.IsWhole

/-- What reading ensures. -/
def Law.decoded : Law where
  value := Value.IsFinite
  field := Field.IsReadable
  operand := Operand.IsReadable
  filter := Filter.IsReadable
  target := JoinTarget.IsReadable
  query q := q.staged = {}

/-- What makes a query come back from its document as it was: floats are numbers and dates whole
milliseconds, no name stands where it would be taken for a key, and nothing is staged. -/
def Law.representable : Law where
  value v := v.IsFinite ∧ v.IsWhole
  field := Field.IsReadable
  operand := Operand.IsReadable
  filter := Filter.IsReadable
  entity e := isReserved e.name = false
  statement := Statement.IsPlain
  target := JoinTarget.IsReadable
  query q := q.staged = {}

/-- A query that comes back from its document as it was. -/
def Query.Representable (q : Query) : Prop := q.Obeys .representable

theorem Law.decoded_weaker : Law.decoded.Weaker .representable := by
  constructor <;> simp +contextual [decoded, representable]

theorem Law.plainTables_weaker : Law.plainTables.Weaker .representable := by
  constructor <;> simp [plainTables, representable]

theorem Law.wholeDates_weaker : Law.wholeDates.Weaker .representable := by
  constructor <;> simp +contextual [wholeDates, representable]

/-! ## Cutting dates off -/

/-- A date cut off to milliseconds, and any other literal as it is. -/
def Value.truncated : Value → Value
  | .dateTime t => .dateTime t.truncated
  | v => v

theorem DateTime.truncated_eq_self {t : DateTime} (h : t.nanosecond % 1000000 = 0) :
    t.truncated = t := by
  have hns : t.nanosecond / 1000000 * 1000000 = t.nanosecond := by omega
  unfold truncated
  simp only [hns]

theorem Law.fixing_truncated_weaker : (Law.fixing Value.truncated).Weaker .wholeDates where
  value v h := by
    rcases v with _ | _ | _ | _ | _ | t
    all_goals try rfl
    exact congrArg Value.dateTime (DateTime.truncated_eq_self h)
  field _ _ := trivial
  operand _ _ := trivial
  filter _ _ := trivial
  entity _ _ := trivial
  column _ _ := trivial
  statement _ _ := trivial
  target _ _ := trivial
  side _ _ := trivial
  join _ _ := trivial
  query _ _ := trivial

theorem DateTime.documentText_truncated (t : DateTime) :
    t.truncated.documentText = t.documentText := by
  have hns : t.nanosecond / 1000000 * 1000000 / 1000000 = t.nanosecond / 1000000 := by omega
  simp only [documentText, dateText, timeText, millisecondText, truncated, hns]

theorem DateTime.statementText_truncated (t : DateTime) :
    t.truncated.statementText = t.statementText := by
  have hns : t.nanosecond / 1000000 * 1000000 / 1000000 = t.nanosecond / 1000000 := by omega
  simp only [statementText, dateText, timeText, millisecondText, truncated, hns]

theorem Value.toJson_truncated (v : Value) : v.truncated.toJson = v.toJson := by
  rcases v with _ | _ | _ | _ | _ | t
  all_goals try rfl
  rw [truncated, toJson, toJson, DateTime.documentText_truncated]

end QueryCompiler
