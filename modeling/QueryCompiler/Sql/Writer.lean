import QueryCompiler.Function.Catalogue
import QueryCompiler.Query.Field
import QueryCompiler.Query.Filter
import QueryCompiler.Sql.Error
import QueryCompiler.Sql.Literal

/-!
# Queries in SQL

Every comparison and every combination of conditions stands between brackets of its own, so that
the text says how it is grouped. Conditions that render as the empty text are left out, and a
combination of nothing is the empty text again.
-/

namespace QueryCompiler

/-- What rendering depends on: how literals are written and which functions there are. -/
structure SqlWriter (ρ : Type := Renderer) where
  dialect : Dialect
  functions : Catalogue ρ

/-- Where a field stands: in a select list, where it carries its alias, or elsewhere. -/
inductive FieldUse
  | projection
  | reference
deriving DecidableEq

/-- An expression with the alias that its use calls for. -/
def FieldUse.named (use : FieldUse) (sql : String) : Option String → String
  | some label => if use = projection then sql ++ " AS " ++ label else sql
  | none => sql

/-- The conditions that say something, between brackets, or the empty text if none does. -/
def Connective.combine (connective : Connective) (parts : List String) : String :=
  let shown := parts.filter fun part => part ≠ ""
  if shown = [] then "" else "(" ++ Text.joined connective.separator shown ++ ")"

namespace SqlWriter

/-- The writer that is used where none is given. -/
def standard : SqlWriter := ⟨.mysql, .standard⟩

variable {ρ : Type}

/-- A call of a function. -/
def call [Renders ρ] (w : SqlWriter ρ) (name : String) (args : List Argument) :
    Except SqlError String :=
  (w.functions.render name args).mapError .function

/-- A literal as an argument. -/
def literalArgument (w : SqlWriter ρ) : Value → Argument
  | .null => .null
  | .integer n => { Argument.scalar (w.dialect.literal (.integer n)) with integer := some n }
  | .string s => .quoted (w.dialect.literal (.string s))
  | .dateTime t => .quoted (w.dialect.literal (.dateTime t))
  | v => .scalar (w.dialect.literal v)

/-- A column of an equi-join, qualified by its table if it is a plain name. -/
def joinColumn (entity column : String) : String :=
  if isIdentifier column then entity ++ "." ++ column else column

/-- The equations between the columns of two sides. -/
def joinEquations (left right : JoinSide) : List String :=
  (left.columns.zip right.columns).map fun (l, r) =>
    joinColumn left.entity l ++ "=" ++ joinColumn right.entity r

/-- The condition of an equi-join. -/
def joinColumns : List JoinSide → Except SqlError String
  | [left, right] =>
    if left.columns.length ≠ right.columns.length ∨ left.columns = [] then
      .error (.unequalSides left.entity right.entity)
    else .ok (" ON " ++ Text.joined " AND " (joinEquations left right))
  | sides => .error (.notTwoSides sides.length)

/-- How many rows are taken, and how many are left out before them. -/
def limitClause (skip take : Option UInt64) : String :=
  match take, skip with
  | none, _ => ""
  | some take, some skip =>
    if 0 < skip then " LIMIT " ++ toString skip ++ ", " ++ toString take
    else " LIMIT " ++ toString take
  | some take, none => " LIMIT " ++ toString take

/-- The name under which a table is joined, if it is not its own. -/
def newName : Option String → String
  | some label => " AS " ++ label
  | none => ""

/-- A clause of a statement, left out when it has no items. -/
def clause (words : String) (items : List String) : String :=
  if items = [] then "" else words ++ Text.joined ", " items

/-- The conditions of a query and of its earlier phases as one. -/
def bothConditions (filter prepared : Option String) : Option String :=
  match filter, prepared with
  | some f, some p => some (Connective.combine .and [f, p])
  | some f, none => some f
  | none, p => p

/-- The clause for a condition, left out when the condition says nothing. -/
def whereClause (condition : Option String) : String :=
  match condition with
  | none => ""
  | some sql => if sql = "" then "" else " WHERE " ++ sql

/-- The beginning of a select statement, up to its joins. -/
def selection (entity : String) (distinct fixed : Bool) (fields : List String) : String :=
  let list := Text.joined ", " fields
  if fixed then "SELECT * FROM (SELECT " ++ list ++ ") " ++ entity
  else "SELECT " ++ (if distinct then "DISTINCT " else "") ++ list ++ " FROM " ++ entity

variable [Renders ρ]

mutual

/-- A field. -/
def field (w : SqlWriter ρ) (use : FieldUse) : Field → Except SqlError String
  | .name name => .ok name
  | .qualified entity name => .ok (entity ++ "." ++ name)
  | .labelled label expression => .ok (use.named expression (some label))
  | .aggregate label func name => .ok (use.named (func.sqlName ++ "(" ++ name ++ ")") (some label))
  | .function label func args => do
    let args ← w.arguments args
    return use.named (← w.call func args) (some label)
  | .constant value label => .ok (use.named (w.dialect.literal value) label)

/-- Fields. -/
def fields (w : SqlWriter ρ) (use : FieldUse) : List Field → Except SqlError (List String)
  | [] => .ok []
  | f :: rest => do
    let sql ← w.field use f
    return sql :: (← w.fields use rest)

/-- An operand: a literal, a field, a list without brackets, or a query between them. -/
def operand (w : SqlWriter ρ) : Operand → Except SqlError String
  | .value v => .ok (w.dialect.literal v)
  | .field f => w.field .reference f
  | .list items => return Text.joined ", " (← w.operands items)
  | .query q => return "(" ++ (← w.query q) ++ ")"

/-- Operands. -/
def operands (w : SqlWriter ρ) : List Operand → Except SqlError (List String)
  | [] => .ok []
  | x :: rest => do
    let sql ← w.operand x
    return sql :: (← w.operands rest)

/-- An operand as an argument of a function. -/
def argument (w : SqlWriter ρ) : Operand → Except SqlError Argument
  | .value v => .ok (w.literalArgument v)
  | .field f => return .raw (← w.field .reference f)
  | .list items => return .raw (Text.joined ", " (← w.operands items))
  | .query q => return .raw ("(" ++ (← w.query q) ++ ")")

/-- The arguments of a function. -/
def arguments (w : SqlWriter ρ) : List Operand → Except SqlError (List Argument)
  | [] => .ok []
  | x :: rest => do
    let arg ← w.argument x
    return arg :: (← w.arguments rest)

/-- What stands behind `IN`. -/
def inList (w : SqlWriter ρ) : Operand → Except SqlError String
  | .list [] => .ok "NULL"
  | .list items => return Text.joined ", " (← w.operands items)
  | .query q => if q.isSelect then w.query q else .error .notList
  | _ => .error .notList

/-- A comparison of an expression. -/
def test (w : SqlWriter ρ) (target : String) : Test → Except SqlError String
  | ⟨op, x⟩ =>
    match op with
    | .eq =>
      if x.isNull then .ok ("(" ++ target ++ " IS NULL)")
      else return "(" ++ target ++ "=" ++ (← w.operand x) ++ ")"
    | .ne =>
      if x.isNull then .ok ("(NOT " ++ target ++ " IS NULL)")
      else return "(NOT " ++ target ++ "=" ++ (← w.operand x) ++ ")"
    | .gt => return "(" ++ target ++ ">" ++ (← w.operand x) ++ ")"
    | .gte => return "(" ++ target ++ ">=" ++ (← w.operand x) ++ ")"
    | .lt => return "(" ++ target ++ "<" ++ (← w.operand x) ++ ")"
    | .lte => return "(" ++ target ++ "<=" ++ (← w.operand x) ++ ")"
    | .isIn => return "(" ++ target ++ " IN (" ++ (← w.inList x) ++ "))"
    | .notIn => return "(NOT " ++ target ++ " IN (" ++ (← w.inList x) ++ "))"

/-- Comparisons of an expression. -/
def tests (w : SqlWriter ρ) (target : String) : List Test → Except SqlError (List String)
  | [] => .ok []
  | t :: rest => do
    let sql ← w.test target t
    return sql :: (← w.tests target rest)

/-- A filter. A function that renders as the empty text is not tested. -/
def filter (w : SqlWriter ρ) : Filter → Except SqlError String
  | .logical connective operands => return connective.combine (← w.filters operands)
  | .compare target t => w.test target t
  | .function target func args ts => do
    let args ← w.arguments args
    let sql ← w.call func (.raw target :: args)
    if sql = "" then return ""
    else match ts with
      | [] => return "(" ++ sql ++ " IS NULL)"
      | [t] => w.test sql t
      | ts => return "(" ++ Text.joined " AND " (← w.tests sql ts) ++ ")"

/-- Filters. -/
def filters (w : SqlWriter ρ) : List Filter → Except SqlError (List String)
  | [] => .ok []
  | f :: rest => do
    let sql ← w.filter f
    return sql :: (← w.filters rest)

/-- A filter that may be absent. -/
def filter? (w : SqlWriter ρ) : Option Filter → Except SqlError (Option String)
  | none => .ok none
  | some f => return some (← w.filter f)

/-- The fields that joined tables contribute to a selection. -/
def joinedFields (w : SqlWriter ρ) : List Join → Except SqlError (List String)
  | [] => .ok []
  | ⟨target, _, _⟩ :: rest => do
    let own ← match target with
      | .entity ⟨_, fs, _⟩ => w.fields .projection fs
      | .query _ => pure []
    return own ++ (← w.joinedFields rest)

/-- What is joined: a table, or a query between brackets. -/
def joinTarget (w : SqlWriter ρ) : JoinTarget → Except SqlError String
  | .entity e => .ok e.name
  | .query q => return "(" ++ (← w.query q) ++ ")"

/-- The condition of a join to the given table. -/
def joinCondition (w : SqlWriter ρ) (entity : String) : JoinCondition → Except SqlError String
  | .columns sides => joinColumns sides
  | .filter f => do
    let sql ← w.filter f
    if sql = "" then .error (.noCondition entity) else return " ON " ++ sql

/-- A join to the given table. -/
def join (w : SqlWriter ρ) (entity : String) : Join → Except SqlError String
  | ⟨target, condition, label⟩ => do
    let joined ← w.joinTarget target
    let on ← w.joinCondition entity condition
    return " INNER JOIN " ++ joined ++ newName (label <|> target.label?) ++ on

/-- Joins to the given table, one behind the other. -/
def joins (w : SqlWriter ρ) (entity : String) : List Join → Except SqlError String
  | [] => .ok ""
  | j :: rest => do
    let sql ← w.join entity j
    return sql ++ (← w.joins entity rest)

/-- The column values of an insert statement. -/
def values (w : SqlWriter ρ) : List Assignment → Except SqlError (List String)
  | [] => .ok []
  | ⟨_, x⟩ :: rest => do
    let sql ← w.operand x
    return sql :: (← w.values rest)

/-- The assignments of an update statement. -/
def assignments (w : SqlWriter ρ) : List Assignment → Except SqlError (List String)
  | [] => .ok []
  | ⟨column, x⟩ :: rest => do
    let sql ← w.operand x
    return (column ++ "=" ++ sql) :: (← w.assignments rest)

/-- The items of orderings. -/
def orders (w : SqlWriter ρ) : List Order → Except SqlError (List String)
  | [] => .ok []
  | ⟨direction, fs⟩ :: rest => do
    if fs.isEmpty then .error .noOrderFields
    else
      let own ← w.fields .reference fs
      return own.map (fun sql => sql ++ " " ++ direction.sqlWord) ++ (← w.orders rest)

/-- A query. -/
def query (w : SqlWriter ρ) : Query → Except SqlError String
  | ⟨statement, js, condition, prepared, os, groups, distinct, fixed, skip, take, _, _⟩ => do
    match statement with
    | none =>
      let f ← w.filter? condition
      let p ← w.filter? prepared
      match bothConditions f p with
      | some sql => return sql
      | none => .error .nothingToSay
    | some (.select entity fs) =>
      if fs.isEmpty && js.all fun j => j.target.fields.isEmpty then .error (.noFields entity)
      else
        let own ← w.fields .projection fs
        let contributed ← w.joinedFields js
        let joined ← w.joins entity js
        let f ← w.filter? condition
        let p ← w.filter? prepared
        let grouped ← w.fields .reference groups
        let ordered ← w.orders os
        return selection entity distinct fixed (own ++ contributed) ++ joined ++
          whereClause (bothConditions f p) ++ clause " GROUP BY " grouped ++
          clause " ORDER BY " ordered ++ limitClause skip take
    | some (.insert entity vs) =>
      if vs.isEmpty then .error (.noValues "insert" entity)
      else
        let written ← w.values vs
        return "INSERT INTO " ++ entity ++ "(" ++ Text.joined ", " (vs.map Assignment.column) ++
          ") VALUES (" ++ Text.joined ", " written ++ ")"
    | some (.update entity vs) =>
      if vs.isEmpty then .error (.noValues "update" entity)
      else
        let written ← w.assignments vs
        let f ← w.filter? condition
        let p ← w.filter? prepared
        return "UPDATE " ++ entity ++ " SET " ++ Text.joined ", " written ++
          whereClause (bothConditions f p)
    | some (.delete entity) =>
      let f ← w.filter? condition
      let p ← w.filter? prepared
      return "DELETE FROM " ++ entity ++ whereClause (bothConditions f p)

end

/-- The clause for orderings. -/
def orderClause (w : SqlWriter ρ) (os : List Order) : Except SqlError String :=
  return clause " ORDER BY " (← w.orders os)

/-- The clause for groupings. -/
def groupClause (w : SqlWriter ρ) (groups : List Field) : Except SqlError String :=
  return clause " GROUP BY " (← w.fields .reference groups)

end SqlWriter

end QueryCompiler
