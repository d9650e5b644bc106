import QueryCompiler.Json.Token
import QueryCompiler.Text.Digits
import QueryCompiler.Yaml.Located

/-!
# Names of anchors and tags

A tag is a sequence of bytes, for it may be written with escapes that make up no text. It is written
in full between angle brackets, or as a handle and the rest: what a handle stands for is said by a
directive in front of the document.
-/

namespace QueryCompiler.Yaml

open Grammar

/-- The kind of a value, as its author names it. -/
structure Tag where
  bytes : List UInt8
deriving DecidableEq

namespace Tag

/-- The tag that a text spells. -/
def ofText (text : String) : Tag :=
  ⟨text.toUTF8.toList⟩

/-- What the tags of the format itself begin with. -/
def standardStem : Tag :=
  ofText "tag:yaml.org,2002:"

/-- A tag of the format itself. -/
def standard (name : String) : Tag :=
  ⟨standardStem.bytes ++ (ofText name).bytes⟩

/-- The name behind the exclamation mark of an author's own tag. A lone mark is its own name. -/
def ownName? (tag : Tag) : Option String :=
  match tag.bytes with
  | [] => none
  | first :: rest =>
    if first = '!'.toUInt8 then
      String.fromUTF8? (ByteArray.mk (if rest = [] then [first] else rest).toArray)
    else none

end Tag

/-- Characters of a tag besides those of a name. In full, and behind a directive, brackets and the
comma are among them. -/
def isTagChar (inFull : Bool) (t : Located) : Bool :=
  t.isNameChar || t.char ∈ [';', '/', '?', ':', '@', '&', '=', '+', '$', '.', '!', '~', '*', '\'',
    '(', ')'] || (inFull && t.char ∈ [',', '[', ']'])

/-- How many bytes follow the first byte of a character, if it is one. -/
def followers? (byte : UInt8) : Option Nat :=
  if byte &&& 0x80 = 0x00 then some 0
  else if byte &&& 0xe0 = 0xc0 then some 1
  else if byte &&& 0xf0 = 0xe0 then some 2
  else if byte &&& 0xf8 = 0xf0 then some 3
  else none

/-- The number of bytes that have to follow a byte, of which `expected` were to follow the one
before. -/
def expectedAfter? (expected : Nat) (byte : UInt8) : Option Nat :=
  match expected with
  | 0 => followers? byte
  | expected + 1 => if byte &&& 0xc0 = 0x80 then some expected else none

/-- Reads the bytes of a tag. Behind a percent sign a byte is written by two hexadecimal digits, and
the bytes of one character are written so all together. -/
def tagBytes (inFull : Bool) (expected : Nat) : (ts : List Located) → Option (List UInt8 × Tail ts)
  | [] => if expected = 0 then some ([], .whole) else none
  | t :: ts =>
    if t.char = '%' then
      match ts with
      | a :: b :: rest => do
        let byte := UInt8.ofNat (← Json.Token.hexValue? [a.char, b.char])
        let (bytes, last) ← tagBytes inFull (← expectedAfter? expected byte) rest
        return (byte :: bytes, last.later.later.later.toTail)
      | _ => none
    else if expected ≠ 0 then none
    else if isTagChar inFull t then
      (tagBytes inFull 0 ts).map fun (bytes, last) =>
        (t.char.toUInt8 :: bytes, last.later.toTail)
    else some ([], .whole)

/-- A byte zero ends a tag, whatever follows it. -/
def ended (bytes : List UInt8) : List UInt8 :=
  bytes.takeWhile (· ≠ 0)

/-- Reads the bytes of a tag, of which there is at least one. -/
def someTagBytes (inFull : Bool) (ts : List Located) : Option (List UInt8 × Tail ts) :=
  match tagBytes inFull 0 ts with
  | some (byte :: bytes, last) => some (ended (byte :: bytes), last)
  | _ => none

/-- The name at the front, which may be empty. -/
def nameAt (ts : List Located) : String :=
  String.ofList (Located.chars (ts.takeWhile Located.isNameChar))

/-- A tag as it is written: a handle, which is empty where the tag is written in full, and the
rest. -/
structure WrittenTag where
  handle : String
  rest : List UInt8
deriving DecidableEq

/-- Reads a tag behind its exclamation mark. -/
def writtenTag (ts : List Located) : Option (WrittenTag × Tail ts) :=
  match ts with
  | ⟨'<', _, _⟩ :: ts => do
    let (bytes, last) ← someTagBytes true ts
    match last with
    | ⟨⟨'>', _, _⟩ :: last, shorter⟩ =>
      return (⟨"", bytes⟩, ⟨last, by simp at shorter ⊢; omega⟩)
    | _ => none
  | ts =>
    let name := nameAt ts
    let behind : Tail ts := .behindWhile Located.isNameChar
    match behind with
    | ⟨⟨'!', _, _⟩ :: rest, shorter⟩ => do
      let (bytes, last) ← someTagBytes false rest
      return (⟨"!" ++ name ++ "!", bytes⟩, ⟨last.1, by have := last.2; simp at shorter; omega⟩)
    | _ => do
      let (bytes, last) ← tagBytes false 0 behind.1
      let written := ended (name.toUTF8.toList ++ bytes)
      if written = [] then return (⟨"", ['!'.toUInt8]⟩, behind.andThen last)
      else return (⟨"!", written⟩, behind.andThen last)

/-- What handles stand for, besides those that a document declares. -/
def standardHandles : List (String × Tag) :=
  [("!", .ofText "!"), ("!!", Tag.standardStem)]

/-- The tag that is written, given what handles stand for. -/
def WrittenTag.tag? (written : WrittenTag) (handles : List (String × Tag)) : Option Tag :=
  if written.handle = "" then some ⟨written.rest⟩
  else (handles.lookup written.handle).map fun stem => ⟨stem.bytes ++ written.rest⟩

/-- Reads the name of an anchor, which ends at a gap or at one of some marks. -/
def anchorName : Reader Located String := fun ts =>
  match ts with
  | [] => none
  | t :: ts =>
    let behind : Rest (t :: ts) := .behindWhile Located.isNameChar
    let marks := ['?', ':', ',', ']', '\x7d', '%', '@', '\x60']
    if t.isNameChar ∧ (atGap behind.1 ∨ atChar marks behind.1) then
      some (nameAt (t :: ts), behind)
    else none

/-- A line in front of a document. -/
inductive Directive
  | version (major minor : Nat)
  /-- What a handle stands for. -/
  | handle (handle : String) (stem : Tag)
deriving DecidableEq

/-- Reads a number of at most nine digits. -/
def versionNumber : Reader Located Nat := fun ts =>
  match ts with
  | [] => none
  | t :: ts =>
    let digits := (t :: ts).takeWhile (·.char.isDigit)
    if t.char.isDigit ∧ digits.length ≤ 9 then
      some (Text.digitsValue (Located.chars digits), .behindWhile (·.char.isDigit))
    else none

/-- Reads the handle of a directive: an exclamation mark, or a name between two of them. -/
def directiveHandle (ts : List Located) : Option (String × Tail ts) :=
  match ts with
  | ⟨'!', _, _⟩ :: ts =>
    let behind : Tail ts := .behindWhile Located.isNameChar
    match behind with
    | ⟨⟨'!', _, _⟩ :: rest, shorter⟩ =>
      some ("!" ++ nameAt ts ++ "!", ⟨rest, by simp at shorter ⊢; omega⟩)
    | _ => if nameAt ts = "" then some ("!", ⟨ts, by simp⟩) else none
  | _ => none

/-- Reads a directive behind its percent sign, with the rest of its line. -/
def directive (ts : List Located) : Option (Directive × Tail ts) := do
  let behind : Tail ts := .behindWhile Located.isNameChar
  if !atGap behind.1 then none
  let blanks := behind.andThen (.behindWhile Located.isBlank)
  let (found, last) ← match nameAt ts with
    | "YAML" => do
      let (major, point) ← versionNumber blanks.1
      match point with
      | ⟨⟨'.', _, _⟩ :: rest, shorter⟩ =>
        let (minor, last) ← versionNumber rest
        pure (Directive.version major minor,
          (⟨last.1, by have := last.2; simp at shorter; omega⟩ : Tail blanks.1))
      | _ => none
    | "TAG" => do
      let (handle, behind) ← directiveHandle blanks.1
      if !behind.1.head?.any Located.isBlank then none
      let between := behind.andThen (.behindWhile Located.isBlank)
      let (bytes, last) ← someTagBytes true between.1
      if !atGap last.1 then none
      pure (Directive.handle handle ⟨bytes⟩, between.andThen last)
    | _ => none
  let whole := blanks.andThen last
  return (found, whole.andThen (← endOfLine whole.1))

end QueryCompiler.Yaml
