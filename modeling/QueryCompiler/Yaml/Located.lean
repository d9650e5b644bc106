import QueryCompiler.Grammar.Reader

/-!
# Characters and their places

YAML is told apart by lines and columns, so a text is taken as characters that know where they
stand. The ends of a line are told apart no further than the format asks: a carriage return, a line
feed, both together and the next-line character are one and the same, while the separators of lines
and of paragraphs end a line and are kept as they are.
-/

namespace QueryCompiler.Yaml

open Grammar

/-- A character and its place. -/
structure Located where
  char : Char
  line : Nat
  column : Nat
deriving DecidableEq

/-- Characters that may stand in a text: no control characters but a tab and the ends of a line. -/
def isAllowed (c : Char) : Bool :=
  if c.toNat < 0x20 then c ∈ ['\t', '\n', '\r']
  else if c.toNat < 0xa0 then c.toNat < 0x7f || c = '\x85'
  else c.toNat ≠ 0xfffe && c.toNat ≠ 0xffff

/-- Gives each character its place, from the first one's on. -/
def locate (line column : Nat) : List Char → List Located
  | [] => []
  | '\r' :: '\n' :: cs => ⟨'\n', line, column⟩ :: locate (line + 1) 0 cs
  | c :: cs =>
    if c ∈ ['\n', '\r', '\x85'] then ⟨'\n', line, column⟩ :: locate (line + 1) 0 cs
    else if c ∈ ['\u2028', '\u2029'] then ⟨c, line, column⟩ :: locate (line + 1) 0 cs
    else ⟨c, line, column⟩ :: locate line (column + 1) cs

/-- The characters of a text with their places. A mark of the byte order in front takes up a
column. -/
def located? (text : String) : Option (List Located) :=
  if text.toList.all isAllowed then
    match text.toList with
    | '\ufeff' :: cs => some (locate 0 1 cs)
    | cs => some (locate 0 0 cs)
  else none

namespace Located

/-- The end of a line. -/
def isBreak (t : Located) : Bool :=
  t.char ∈ ['\n', '\u2028', '\u2029']

/-- A blank inside a line. -/
def isBlank (t : Located) : Bool :=
  t.char = ' ' || t.char = '\t'

/-- A blank or the end of a line. -/
def isGap (t : Located) : Bool :=
  t.isBlank || t.isBreak

/-- A character of a name: an ASCII letter, a digit, a hyphen or an underscore. -/
def isNameChar (t : Located) : Bool :=
  t.char.isAlphanum || t.char = '_' || t.char = '-'

/-- A bracket, a brace or a comma. -/
def isFlowMark (t : Located) : Bool :=
  t.char ∈ [',', '[', ']', '\x7b', '\x7d']

/-- The characters without their places. -/
def chars (ts : List Located) : List Char :=
  ts.map Located.char

end Located

/-- A gap or the end of the text is next. -/
def atGap (ts : List Located) : Bool :=
  ts.head?.all Located.isGap

/-- One of some characters is next. -/
def atChar (cs : List Char) (ts : List Located) : Bool :=
  ts.head?.any fun t => t.char ∈ cs

/-- The mark of three characters that is next, which begins a line and ends at a gap. -/
def documentMark? : List Located → Option Char
  | a :: b :: c :: ts =>
    if a.column = 0 ∧ a.char ∈ ['-', '.'] ∧ b.char = a.char ∧ c.char = a.char ∧ atGap ts then
      some a.char
    else none
  | _ => none

/-- The rest of a line, in which nothing but a comment may stand. -/
def endOfLine (ts : List Located) : Option (Tail ts) :=
  let blanks : Tail ts := .behindWhile Located.isBlank
  let comment : Tail blanks.1 :=
    if atChar ['#'] blanks.1 then .behindWhile fun t => !t.isBreak else .whole
  let last := blanks.andThen comment
  match h : last.1 with
  | [] => some last
  | t :: ts =>
    if t.isBreak then some ⟨ts, by have := last.2; rw [h] at this; simp at this; omega⟩ else none

end QueryCompiler.Yaml
