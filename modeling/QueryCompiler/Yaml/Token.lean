import QueryCompiler.Yaml.Scalar
import QueryCompiler.Yaml.Tag

/-!
# Tokens of YAML text

Block collections have no brackets: they begin and end where the columns of their parts say so, and
a key is known for one only by the colon behind it. `Layout` holds what is needed to tell, and puts
the marks of collections and keys among the tokens, those of a key in front of what was read since.
-/

namespace QueryCompiler.Yaml

open Grammar

/-- A token. -/
inductive Token
  | directive (directive : Directive)
  /-- The mark before a document. -/
  | opening
  /-- The mark behind a document. -/
  | closing
  /-- A sequence of items begins. -/
  | blockSequence
  /-- A mapping begins. -/
  | blockMapping
  /-- A sequence of items or a mapping ends. -/
  | blockEnd
  /-- A bracket, a brace or a comma. -/
  | mark (c : Char)
  /-- The hyphen before an item. -/
  | item
  /-- A key follows. -/
  | key
  /-- The value of a key follows. -/
  | value
  | anchor (name : String)
  | aliasTo (name : String)
  | tag (tag : WrittenTag)
  | scalar (style : Style) (text : String)
deriving DecidableEq

/-- What may turn out to be a key. -/
structure Candidate where
  line : Nat
  column : Nat
  /-- How many tokens stand before it. -/
  index : Nat
  /-- It stands where the mapping around must have a key. -/
  required : Bool

/-- What the text so far says of the text to come. -/
structure Layout where
  /-- The columns of the open block collections, the innermost first. -/
  columns : List Nat := []
  /-- What may be a key at the present depth of brackets. -/
  candidate : Option Candidate := none
  /-- The same for the depths around. -/
  outer : List (Option Candidate) := []
  /-- A key may begin here. -/
  keyAllowed : Bool := true
  /-- The tokens, the last first. -/
  tokens : List Token := []

namespace Layout

/-- A bracket is open. -/
def inFlow (l : Layout) : Bool :=
  !l.outer.isEmpty

/-- Adds a token. -/
def put (token : Token) (l : Layout) : Layout :=
  { l with tokens := token :: l.tokens }

/-- Adds a token in front of all but the first `index`. -/
def putAt (index : Nat) (token : Token) (l : Layout) : Layout :=
  let (later, earlier) := l.tokens.splitAt (l.tokens.length - index)
  { l with tokens := later ++ token :: earlier }

/-- Says whether a key may begin behind what is read. -/
def allowKey (allowed : Bool) (l : Layout) : Layout :=
  { l with keyAllowed := allowed }

/-- Opens a block collection unless one of the column is open. -/
def openBlock (column index : Nat) (token : Token) (l : Layout) : Layout :=
  if !l.inFlow && l.columns.head?.all (· < column) then
    { l.putAt index token with columns := column :: l.columns }
  else l

/-- Closes the block collections whose columns are not kept. -/
def closeBlocks (kept : Nat → Bool) (l : Layout) : Layout :=
  if l.inFlow then l
  else
    let closed := l.columns.takeWhile fun column => !kept column
    { l with
      columns := l.columns.drop closed.length
      tokens := closed.map (fun _ => .blockEnd) ++ l.tokens }

/-- Gives up the candidate, unless it is required. -/
def dropCandidate (l : Layout) : Option Layout :=
  if l.candidate.any Candidate.required then none else some { l with candidate := none }

/-- Makes a candidate of what begins at a place, if a key may begin there. -/
def addCandidate (t : Located) (l : Layout) : Option Layout :=
  if l.keyAllowed then
    l.dropCandidate.map fun l => { l with candidate := some {
      line := t.line
      column := t.column
      index := l.tokens.length
      required := !l.inFlow && l.columns.head? = some t.column } }
  else some l

/-- The candidate can be no key any more: a key is on one line with its colon, and no more than 1024
characters long. -/
def isStale (t : Located) (c : Candidate) : Bool :=
  c.line < t.line || c.column + 1024 < t.column

/-- Gives up all candidates that have become stale. -/
def dropStale (t : Located) (l : Layout) : Option Layout :=
  if (l.candidate :: l.outer).any fun c => c.any fun c => isStale t c && c.required then none
  else
    let fresh (c : Option Candidate) := c.filter fun c => !isStale t c
    some { l with candidate := fresh l.candidate, outer := l.outer.map fresh }

/-- Before a directive or a mark of a document all block collections end. -/
def endDocument (l : Layout) : Option Layout :=
  ((l.closeBlocks fun _ => false).allowKey false).dropCandidate

/-- A part of a block collection begins at a place, where a key may begin. -/
def beginPart (t : Located) (token : Token) (l : Layout) : Option Layout :=
  if l.inFlow then some l
  else if l.keyAllowed then some (l.openBlock t.column l.tokens.length token)
  else none

/-- The colon behind a key, or before the value of a key that has been marked as one. -/
def addValue (t : Located) (l : Layout) : Option Layout :=
  match l.candidate with
  | some c =>
    let marked := (l.putAt c.index .key).openBlock c.column c.index .blockMapping
    some ({ marked.allowKey false with candidate := none }.put .value)
  | none => (l.beginPart t .blockMapping).map fun l => (l.allowKey (!l.inFlow)).put .value

/-- Skips gaps and comments up to the next token. Outside brackets a key may begin on a new line; a
tab is a gap only where no key may begin. -/
def skipGap (l : Layout) (inComment : Bool) : (ts : List Located) → Layout × Tail ts
  | [] => (l, .whole)
  | t :: ts =>
    let skipped (l : Layout) (inComment : Bool) : Layout × Tail (t :: ts) :=
      let (l, rest) := skipGap l inComment ts
      (l, rest.later.toTail)
    if t.isBreak then skipped (l.allowKey (l.keyAllowed || !l.inFlow)) false
    else if inComment then skipped l true
    else if t.char = ' ' ∨ (t.char = '\t' ∧ (l.inFlow ∨ !l.keyAllowed)) then skipped l false
    else if t.char = '#' then skipped l true
    else (l, .whole)

/-- The character begins a plain scalar: it has no meaning of its own, or it is a hyphen, a question
mark or a colon that has none where it stands. -/
def beginsPlain (inFlow : Bool) (t : Located) (ts : List Located) : Bool :=
  if t.char = '-' then !ts.head?.any Located.isBlank
  else if t.char = '?' ∨ t.char = ':' then !inFlow && !atGap ts
  else !t.isGap && !t.isFlowMark &&
    !(t.char ∈ ['#', '&', '*', '!', '|', '>', '\'', '"', '%', '@', '\x60'])

/-- Reads the token that begins with a character. -/
def token (l : Layout) (t : Located) (ts : List Located) : Option (Layout × Rest (t :: ts)) :=
  let c := t.char
  match documentMark? (t :: ts) with
  | some m => do
    let l ← l.endDocument
    return (l.put (if m = '-' then .opening else .closing), .behind 2)
  | none =>
    if t.column = 0 ∧ c = '%' then do
      let l ← l.endDocument
      let (found, rest) ← directive ts
      return (l.put (.directive found), rest.later)
    else if c = '[' ∨ c = '\x7b' then do
      let l ← l.addCandidate t
      let inner := { l.allowKey true with candidate := none, outer := l.candidate :: l.outer }
      return (inner.put (.mark c), .tail)
    else if c = ']' ∨ c = '\x7d' then do
      let l ← l.dropCandidate
      let around := { l.allowKey false with
        candidate := l.outer.head?.join, outer := l.outer.tail }
      return (around.put (.mark c), .tail)
    else if c = ',' then do
      let l ← l.dropCandidate
      return ((l.allowKey true).put (.mark c), .tail)
    else if c = '-' ∧ atGap ts then do
      let l ← (← l.beginPart t .blockSequence).dropCandidate
      return ((l.allowKey true).put .item, .tail)
    else if c = '?' ∧ (l.inFlow ∨ atGap ts) then do
      let l ← (← l.beginPart t .blockMapping).dropCandidate
      return ((l.allowKey (!l.inFlow)).put .key, .tail)
    else if c = ':' ∧ (l.inFlow ∨ atGap ts) then (l.addValue t).map fun l => (l, .tail)
    else if (c = '|' ∨ c = '>') ∧ !l.inFlow then do
      let l ← l.dropCandidate
      let (text, rest) ← blockText (c = '>') l.columns.head? ts
      let style := if c = '>' then .folded else .literal
      return ((l.allowKey true).put (.scalar style (String.ofList text)), rest.later)
    else do
      let l ← l.addCandidate t
      let l := l.allowKey false
      if c = '&' then
        let (name, rest) ← anchorName ts
        return (l.put (.anchor name), rest.later)
      else if c = '*' then
        let (name, rest) ← anchorName ts
        return (l.put (.aliasTo name), rest.later)
      else if c = '!' then
        let (tag, rest) ← writtenTag ts
        if atGap rest.1 || (l.inFlow && atChar [','] rest.1) then
          return (l.put (.tag tag), rest.later)
        else none
      else if c = '\'' ∨ c = '"' then
        let (text, rest) ← quotedText c ts
        return (l.put (.scalar .quoted (String.ofList text)), rest.later)
      else if beginsPlain l.inFlow t ts then
        let least := (l.columns.head?.map (· + 1)).getD 0
        let ((text, broken), rest) ← plainRest l.inFlow least ts
        return ((l.allowKey broken).put (.scalar .plain (String.ofList (c :: text))), rest.later)
      else none

/-- The tokens of a text. -/
def scan (l : Layout) (ts : List Located) : Option (List Token) :=
  match skipGap l false ts with
  | (l, ⟨[], _⟩) => l.endDocument.map fun l => l.tokens.reverse
  | (l, ⟨t :: ts, _noLonger⟩) => do
    let l ← l.dropStale t
    let (l, rest) ← (l.closeBlocks (· ≤ t.column)).token t ts
    scan l rest.1
termination_by ts.length
decreasing_by exact Nat.lt_of_lt_of_le rest.2 _noLonger

end Layout

/-- The tokens of a text. -/
def Token.all? (text : String) : Option (List Token) := do
  Layout.scan {} (← located? text)

end QueryCompiler.Yaml
