import QueryCompiler.Json.Token
import QueryCompiler.Yaml.Located

/-!
# The text of scalars

A scalar is plain, stands between quotes, or is a block of lines. In all but literal blocks the end
of a line says no more than a blank, and empty lines say one end of a line each.
-/

namespace QueryCompiler.Yaml

open Grammar

/-- How a scalar is written. -/
inductive Style
  | plain
  | quoted
  | literal
  | folded
deriving DecidableEq

/-- The ends of lines in a text. -/
def breaks (ts : List Located) : List Char :=
  Located.chars (ts.filter Located.isBreak)

/-- What a gap inside a scalar says: blanks stand for themselves, one end of a line stands for a
blank, and of more ends the first says nothing. An end that separates lines or paragraphs is
kept. -/
def foldedGap (gap : List Located) : List Char :=
  match breaks gap with
  | [] => Located.chars gap
  | ['\n'] => [' ']
  | '\n' :: more => more
  | separators => separators

/-- The gap at the front. -/
def gapAt (ts : List Located) : List Located :=
  ts.takeWhile Located.isGap

/-- The characters that a backslash and one character stand for. -/
def escapes : List (Char × Char) :=
  [('0', '\x00'), ('a', '\x07'), ('b', '\x08'), ('t', '\t'), ('\t', '\t'), ('n', '\n'),
   ('v', '\x0b'), ('f', '\x0c'), ('r', '\r'), ('e', '\x1b'), (' ', ' '), ('"', '"'), ('/', '/'),
   ('\\', '\\'), ('N', '\x85'), ('_', '\xa0'), ('L', '\u2028'), ('P', '\u2029')]

/-- How many hexadecimal digits follow a backslash and a letter. -/
def escapeWidth? : Char → Option Nat
  | 'x' => some 2
  | 'u' => some 4
  | 'U' => some 8
  | _ => none

/-- Reads what stands behind a backslash that is no end of a line. -/
def escape : Reader Located Char
  | [] => none
  | t :: ts => match escapeWidth? t.char with
    | none => (escapes.lookup t.char).map fun c => (c, .tail)
    | some width => do
      let digits := ts.take width
      let n ← Json.Token.hexValue? (Located.chars digits)
      if digits.length = width ∧ n.isValidChar then some (Char.ofNat n, .behind width) else none

/-- A part of a quoted scalar and what is left behind it, where no mark of a document may begin a
line. -/
def partBefore {ts : List Located} (text : List Char) (rest : Rest ts) :
    Option (Option (List Char) × Rest ts) :=
  if (documentMark? rest.1).isSome then none else some (some text, rest)

/-- Reads a part of a quoted scalar, or its closing quote. Between single quotes a quote is written
twice, between double quotes a backslash begins an escape. -/
def quotedPart (quote : Char) : Reader Located (Option (List Char))
  | [] => none
  | t :: ts =>
    if t.isGap then partBefore (foldedGap (gapAt (t :: ts))) (.behindWhile Located.isGap)
    else if t.char = quote then
      if quote = '\'' ∧ atChar [quote] ts then some (some [quote], .behind 1)
      else some (none, .tail)
    else if t.char = '\\' ∧ quote = '"' then
      if ts.head?.any Located.isBreak then
        let rest : Tail ts := .behindWhile Located.isGap
        partBefore (breaks (gapAt ts.tail)) rest.later
      else (escape ts).map fun (c, rest) => (some [c], rest.later)
    else some (some [t.char], .tail)

/-- Reads the inside of quotes and the closing one. -/
def quotedText (quote : Char) : Reader Located (List Char) :=
  (Reader.untilNone (quotedPart quote)).map List.flatten

/-- Inside brackets a colon may not stand before one of their marks. -/
def isColonFault (inFlow : Bool) : List Located → Bool
  | t :: ts => inFlow && t.char = ':' && atChar [',', '?', '[', ']', '\x7b', '\x7d'] ts
  | [] => false

/-- A plain scalar ends before a colon that a gap follows, and inside brackets before one of their
marks. -/
def endsPlain (inFlow : Bool) : List Located → Bool
  | t :: ts => (t.char = ':' && atGap ts) || (inFlow && t.isFlowMark)
  | [] => true

/-- A plain scalar does not go on behind a gap where it would end there, where a comment or the mark
of a document begins, or where a line does not stand to the right of the collection around. -/
def endsPlainBehindGap (inFlow : Bool) (least : Nat) (ts : List Located) : Bool :=
  endsPlain inFlow ts || atChar ['#'] ts || (documentMark? ts).isSome ||
    (!inFlow && ts.head?.any fun t => t.column < least)

/-- A tab stands where a line inside a scalar begins. -/
def hasLeadingTab (least : Nat) (gap : List Located) : Bool :=
  (gap.dropWhile fun t => !t.isBreak).any fun t => t.char = '\t' && t.column < least

/-- Reads a plain scalar behind its first character, and tells whether lines end behind it. -/
def plainRest (inFlow : Bool) (least : Nat) (xs : List Located) :
    Option ((List Char × Bool) × Tail xs) :=
  match xs with
  | [] => some (([], false), .whole)
  | t :: ts =>
    if t.isGap then
      let gap := gapAt (t :: ts)
      let rest : Rest (t :: ts) := .behindWhile Located.isGap
      if hasLeadingTab least gap then none
      else if endsPlainBehindGap inFlow least rest.1 then
        some (([], gap.any Located.isBreak), rest.toTail)
      else (plainRest inFlow least rest.1).map fun ((text, broken), last) =>
        ((foldedGap gap ++ text, broken), (rest.andThen last).toTail)
    else if isColonFault inFlow (t :: ts) then none
    else if endsPlain inFlow (t :: ts) then some (([], false), .whole)
    else (plainRest inFlow least ts).map fun ((text, broken), last) =>
      ((t.char :: text, broken), last.later.toTail)
termination_by xs.length
decreasing_by
  · exact rest.2
  · exact Nat.lt_succ_self _

/-- What becomes of the ends of lines behind a block. -/
inductive Chomping
  /-- None is kept. -/
  | strip
  /-- The first is kept. -/
  | clip
  /-- All are kept. -/
  | keep

/-- The sign of a way of chomping. -/
def Chomping.ofSign? : Char → Option Chomping
  | '-' => some strip
  | '+' => some keep
  | _ => none

/-- A number of columns, which is a digit other than zero. -/
def columnCount? (c : Char) : Option Nat :=
  if c.isDigit ∧ c ≠ '0' then some (c.toNat - '0'.toNat) else none

/-- Reads the line on which a block is announced, behind its first character: a sign and a number of
columns, in either order and each of them if it is there. -/
def blockHeader (ts : List Located) : Option ((Chomping × Option Nat) × Tail ts) := do
  let sign : Reader Located Chomping := Reader.item fun t => Chomping.ofSign? t.char
  let (before, rest) := Reader.attempt sign ts
  let (columns, last) := Reader.attempt (Reader.item fun t => columnCount? t.char) rest.1
  let rest := rest.andThen last
  let (after, last) := if before.isSome then (none, .whole) else Reader.attempt sign rest.1
  let rest := rest.andThen last
  return (((before <|> after).getD .clip, columns), rest.andThen (← endOfLine rest.1))

/-- Reads empty lines and the blanks that a line of a block begins with: those left of the block's
column, or all of them if it is not known. Gives the ends of lines, and the first column that no
line left blank. -/
def emptyLines (column : Option Nat) : (ts : List Located) → Option ((List Char × Nat) × Tail ts)
  | [] => some (([], 0), .whole)
  | t :: ts =>
    let outside := column.all (t.column < ·)
    if outside ∧ t.char = ' ' then
      (emptyLines column ts).map fun ((ends, width), last) =>
        ((ends, max (t.column + 1) width), last.later.toTail)
    else if outside ∧ t.char = '\t' then none
    else if t.isBreak then
      (emptyLines column ts).map fun ((ends, width), last) =>
        ((t.char :: ends, max t.column width), last.later.toTail)
    else some (([], t.column), .whole)

/-- The lines of a block that were read so far, as far as they decide how it goes on. -/
structure BlockEnd where
  /-- The end of the last line. -/
  last : List Char := []
  /-- The ends of the empty lines behind it. -/
  empty : List Char := []
  /-- The last line begins with a blank. -/
  indented : Bool := false

/-- What stands between the last line and the next one. In a folded block the end of a line that no
blank stands next to says a blank, or nothing where empty lines follow. -/
def BlockEnd.joint (e : BlockEnd) (folded indented : Bool) : List Char :=
  if folded ∧ e.last = ['\n'] ∧ !e.indented ∧ !indented then
    if e.empty = [] then [' '] else e.empty
  else e.last ++ e.empty

/-- What stands behind the last line of all. -/
def BlockEnd.tail (e : BlockEnd) : Chomping → List Char
  | .strip => []
  | .clip => e.last
  | .keep => e.last ++ e.empty

/-- Reads the lines of a block that begin in a column. -/
def blockLines (folded : Bool) (chomping : Chomping) (column : Nat) (e : BlockEnd)
    (xs : List Located) : Option (List Char × Tail xs) :=
  match xs with
  | [] => some (e.tail chomping, .whole)
  | t :: ts =>
    if t.column ≠ column then some (e.tail chomping, .whole)
    else
      let line := t :: ts.takeWhile fun t => !t.isBreak
      let text := e.joint folded t.isBlank ++ Located.chars line
      let rest : Rest (t :: ts) := .behindWhile fun t => !t.isBreak
      match rest with
      | ⟨[], _⟩ => some (text, ⟨[], Nat.zero_le _⟩)
      | ⟨u :: us, shorter⟩ => do
        let ((ends, _), next) ← emptyLines (some column) us
        let (more, last) ← blockLines folded chomping column ⟨[u.char], ends, t.isBlank⟩ next.1
        return (text ++ more, ⟨last.1, by
          have := last.2
          have := next.2
          simp only [List.length_cons] at shorter ⊢
          omega⟩)
termination_by xs.length
decreasing_by
  have := next.2
  simp only [List.length_cons] at shorter ⊢
  omega

/-- Reads a block scalar behind its first character. Its column is counted from that of the
collection around or is that of the first line, and lies to the right of that collection. -/
def blockText (folded : Bool) (around : Option Nat) (ts : List Located) :
    Option (List Char × Tail ts) := do
  let ((chomping, columns), rest) ← blockHeader ts
  let given := columns.map fun n => around.getD 0 + n
  let ((ends, width), last) ← emptyLines given rest.1
  let rest := rest.andThen last
  let least := (around.map (· + 1)).getD 0
  let column := given.getD (max width (max least 1))
  let (text, last) ← blockLines folded chomping column { empty := ends } rest.1
  return (text, rest.andThen last)

end QueryCompiler.Yaml
