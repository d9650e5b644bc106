import QueryCompiler.Yaml.Basic
import QueryCompiler.Yaml.Token

/-!
# Reading YAML text

One document. In front of a value may stand an anchor and a tag, in either order. Where a value is
left out, the value is the empty plain scalar; nothing but a tag or an anchor may stand for one
where a value must begin.
-/

namespace QueryCompiler.Yaml

open Grammar

/-- Where a value stands. -/
inductive Context
  /-- In a block of its own. -/
  | block
  /-- Behind the mark of a key or of its value, where items may stand in the column of the key. -/
  | entry
  /-- Inside brackets. -/
  | flow
deriving DecidableEq

/-- The name of an anchor. -/
def anchorOf? : Token → Option String
  | .anchor name => some name
  | _ => none

/-- A tag. -/
def tagOf? : Token → Option WrittenTag
  | .tag written => some written
  | _ => none

/-- A value that is named elsewhere. -/
def aliasOf? : Token → Option (Yaml String)
  | .aliasTo name => some (.aliasTo name)
  | _ => none

/-- Reads what stands in front of a value, given what handles stand for. -/
def properties (handles : List (String × Tag)) (ts : List Token) :
    Option (Properties String × Tail ts) := do
  let (before, rest) := Reader.attempt (Reader.item anchorOf?) ts
  let (written, last) := Reader.attempt (Reader.item tagOf?) rest.1
  let rest := rest.andThen last
  let (after, last) :=
    if before.isSome then (none, .whole) else Reader.attempt (Reader.item anchorOf?) rest.1
  let tag ← match written with
    | some written => (written.tag? handles).map some
    | none => pure none
  return (⟨before <|> after, tag⟩, rest.andThen last)

/-- Takes one given token. -/
def exactly (token : Token) : Reader Token Unit := Reader.exactly token

/-- Reads with `p` behind a mark. -/
def behindMark {α : Type} (mark : Token) (p : (ts : List Token) → Option (α × Tail ts)) :
    Reader Token α := fun ts => do
  let (_, rest) ← exactly mark ts
  let (a, last) ← p rest.1
  return (a, rest.andThen last)

/-- Reads a value, which is left out before some tokens. -/
def valueUnless (ends : Token → Bool) (value : Reader Token (Yaml String)) (ts : List Token) :
    Option (Yaml String × Tail ts) :=
  if ts.head?.any ends then some (absent {}, .whole)
  else (value ts).map fun (y, rest) => (y, rest.toTail)

/-- Reads the value of a key if its mark is there. -/
def valueOfKey (ends : Token → Bool) (value : Reader Token (Yaml String)) (ts : List Token) :
    Option (Yaml String × Tail ts) :=
  if ts.head? = some .value then
    (behindMark .value (valueUnless ends value) ts).map fun (y, rest) => (y, rest.toTail)
  else some (absent {}, .whole)

/-- Reads a key, and then its value. -/
def entryWith (key value : (ts : List Token) → Option (Yaml String × Tail ts)) (ts : List Token) :
    Option ((Yaml String × Yaml String) × Tail ts) := do
  let (k, rest) ← key ts
  let (v, last) ← value rest.1
  return ((k, v), rest.andThen last)

/-- Reads items behind their hyphens. -/
def items (ends : Token → Bool) (value : Reader Token (Yaml String)) :
    Reader Token (List (Yaml String)) :=
  let item := behindMark .item (valueUnless ends value)
  item.oneAndMany item

/-- A part of a block mapping ends. -/
def endsEntry (t : Token) : Bool :=
  t ∈ [.key, .value, .blockEnd]

/-- Reads an entry of a block mapping. -/
def blockEntry (value : Reader Token (Yaml String)) : Reader Token (Yaml String × Yaml String) :=
  behindMark .key (entryWith (valueUnless endsEntry value) (valueOfKey endsEntry value))

/-- Reads a block collection whose beginning has a mark. -/
def blockOf {α : Type} (beginning : Token) (part : Reader Token α) : Reader Token (List α) :=
  behindMark beginning fun ts => do
    let (parts, rest) := Reader.many part ts
    let (_, last) ← exactly .blockEnd rest.1
    return (parts, rest.andThen last.toTail)

/-- Reads things up to a closing mark, with a comma behind each but perhaps the last. -/
def listed {α : Type} (p : Reader Token α) (closing : Char) : Reader Token (List α)
  | [] => none
  | t :: rest =>
    if t = .mark closing then some ([], .tail)
    else match p (t :: rest) with
      | none => none
      | some (_, ⟨[], _⟩) => none
      | some (a, ⟨u :: after, h⟩) =>
        have shorter : after.length < (t :: rest).length := Nat.lt_trans (Nat.lt_succ_self _) h
        if u = .mark closing then some ([a], ⟨after, shorter⟩)
        else if u = .mark ',' then
          (listed p closing after).map fun (as, last) =>
            (a :: as, last.within (Nat.le_of_lt shorter))
        else none
termination_by ts => ts.length
decreasing_by exact shorter

/-- Reads things between two brackets. -/
def bracketed {α : Type} (opening closing : Char) (p : Reader Token α) : Reader Token (List α) :=
  (exactly (.mark opening)).andThen fun _ => listed p closing

/-- Reads an entry between braces, whose value may be left out, with or without the mark of a
key. -/
def flowEntry (value : Reader Token (Yaml String)) : Reader Token (Yaml String × Yaml String) :=
  fun ts =>
    let endsValue (t : Token) : Bool := t ∈ [.mark ',', .mark '\x7d']
    let endsKey (t : Token) : Bool := t = .value || endsValue t
    if ts.head? = some .key then
      behindMark .key (entryWith (valueUnless endsKey value) (valueOfKey endsValue value)) ts
    else (value ts).map fun (key, rest) => ((key, absent {}), rest)

/-- Reads an item between brackets, where an entry is a mapping of its own. A token that stands
where its key is left out goes with the key. -/
def flowItem (value : Reader Token (Yaml String)) : Reader Token (Yaml String) := fun ts =>
  let endsValue (t : Token) : Bool := t ∈ [.mark ',', .mark ']']
  let key (ts : List Token) : Option (Yaml String × Tail ts) :=
    match ts with
    | [] => none
    | t :: ts =>
      if t = .value || endsValue t then some (absent {}, ⟨ts, Nat.le_succ _⟩)
      else (value (t :: ts)).map fun (y, rest) => (y, rest.toTail)
  if ts.head? = some .key then
    (behindMark .key (entryWith key (valueOfKey endsValue value)) ts).map fun (entry, rest) =>
      (.mapping {} [entry], rest)
  else value ts

/-- A scalar, with what stood in front of it. -/
def scalarOf? (p : Properties String) : Token → Option (Yaml String)
  | .scalar style text => some (.scalar p style text)
  | _ => none

/-- The reader for a value that begins with a token, with what stood in front of it, given how to
read the values in it. -/
def content? (context : Context) (inner : Context → Reader Token (Yaml String))
    (p : Properties String) : Token → Option (Reader Token (Yaml String))
  | .scalar .. => some (Reader.item (scalarOf? p))
  | .mark '[' => some ((bracketed '[' ']' (flowItem (inner .flow))).map (Yaml.sequence p))
  | .mark '\x7b' =>
    some ((bracketed '\x7b' '\x7d' (flowEntry (inner .flow))).map (Yaml.mapping p))
  | .item =>
    if context = .entry then
      some ((items (fun t => t = .item || endsEntry t) (inner .block)).map (Yaml.sequence p))
    else none
  | .blockSequence =>
    let item := behindMark .item (valueUnless (fun t => t ∈ [.item, .blockEnd]) (inner .block))
    if context = .flow then none
    else some ((blockOf .blockSequence item).map (Yaml.sequence p))
  | .blockMapping =>
    if context = .flow then none
    else some ((blockOf .blockMapping (blockEntry (inner .entry))).map (Yaml.mapping p))
  | _ => none

/-- Reads a value in which collections are at most `depth` deep. -/
def value (handles : List (String × Tag)) : (depth : Nat) → Context → Reader Token (Yaml String)
  | 0, _ => fun _ => none
  | depth + 1, context => (Reader.item aliasOf?).orElse fun ts => do
    let (p, rest) ← properties handles ts
    match rest.1.head?.bind (content? context (value handles depth) p) with
    | some read => (read rest.1).map fun (y, last) => (y, last.within rest.2)
    | none => if h : rest.1.length < ts.length then return (absent p, ⟨rest.1, h⟩) else none

/-- The directives of a document: what handles stand for, and whether a version is given. No handle
is declared twice, no more than one version is given, and it is one that is known. -/
structure Directives where
  handles : List (String × Tag) := []
  hasVersion : Bool := false

/-- Adds a directive. -/
def Directives.add? (found : Directives) : Directive → Option Directives
  | .version major minor =>
    if found.hasVersion ∨ major ≠ 1 ∨ (minor ≠ 1 ∧ minor ≠ 2) then none
    else some { found with hasVersion := true }
  | .handle handle stem =>
    if (found.handles.lookup handle).isSome then none
    else some { found with handles := (handle, stem) :: found.handles }

/-- The directives at the front, and what is left behind them. -/
def Directives.take? (found : Directives) : List Token → Option (Directives × List Token)
  | .directive d :: ts => do Directives.take? (← found.add? d) ts
  | ts => some (found, ts)

/-- The value of a document's tokens. Nothing follows the document but marks that end it. -/
def ofTokens? (ts : List Token) : Option (Yaml String) := do
  let (y, rest) ← match ts with
    | [] => pure (absent {}, [])
    | .directive _ :: _ | .opening :: _ => do
      match ← Directives.take? {} ts with
      | (found, .opening :: ts) =>
        let ends : Token → Bool := fun
          | .directive _ | .opening | .closing => true
          | _ => false
        if ts = [] then pure (absent {}, [])
        else
          let root := value (found.handles ++ standardHandles) (ts.length + 1) .block
          let (y, rest) ← valueUnless ends root ts
          pure (y, rest.1)
      | _ => none
    | ts => do
      let (y, rest) ← value standardHandles (ts.length + 1) .block ts
      pure (y, rest.1)
  if rest.all fun t => t = .closing then return y else none

/-- The value that a text writes. -/
def ofText? (text : String) : Option (Yaml String) := do
  ofTokens? (← Token.all? text)

end QueryCompiler.Yaml
