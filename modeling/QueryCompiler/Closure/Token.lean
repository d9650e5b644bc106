import QueryCompiler.Grammar.Reader
import QueryCompiler.Text.Numeral

/-!
# Tokens of closures

The text of a closure is cut into words, numerals, quoted texts and marks. Blanks and comments
stand between tokens and say nothing; elsewhere a token is as long as it can be. A token keeps the
text that it was read from.
-/

namespace QueryCompiler.Closure

open Grammar

/-- A token of a closure. -/
inductive Token
  /-- A name or a keyword. -/
  | word (w : String)
  | numeral (raw : String)
  /-- A text between quotes, with its escapes. -/
  | quoted (quote : Char) (body : String)
  /-- An operator, a bracket or a separator. -/
  | mark (m : String)
deriving DecidableEq

namespace Token

/-- Blanks between tokens. -/
def isBlank (c : Char) : Bool :=
  c = ' ' ∨ c = '\t' ∨ c = '\r' ∨ c = '\n'

/-- The ends of a line. -/
def endsLine (c : Char) : Bool :=
  c = '\r' ∨ c = '\n'

/-- Characters at the start of a name. -/
def startsName (c : Char) : Bool :=
  c.isAlpha ∨ c = '_' ∨ c = '$'

/-- Characters of a name. -/
def isNameChar (c : Char) : Bool :=
  c.isAlphanum ∨ c = '_' ∨ c = '$'

/-- The marks, of which one that begins with another comes first. -/
def marks : List String :=
  ["===", "!==", "==", "!=", ">=", "<=", "=>", "||", "&&", "(", ")", "\x7b", "\x7d", ",", ";", ".",
   "+", "-", "*", "/", "%", "!", ">", "<"]

/-- Reads the inside of a quoted text and its closing quote. A backslash protects the next
character. -/
def quotedBody (quote : Char) : Reader Char (List Char)
  | [] => none
  | c :: cs =>
    if c = quote then some ([], .tail)
    else if c = '\\' then
      match cs with
      | [] => none
      | d :: cs =>
        (quotedBody quote cs).map fun (body, rest) => (c :: d :: body, rest.later.later)
    else (quotedBody quote cs).map fun (body, rest) => (c :: body, rest.later)

/-- Reads the token at the front, which is neither blank nor comment. -/
def read : Reader Char Token
  | [] => none
  | c :: cs =>
    if startsName c then
      some (word (String.ofList (c :: cs.takeWhile isNameChar)), .behindWhile isNameChar)
    else if c.isDigit then
      let length := Text.numeralLength (c :: cs)
      some (numeral (String.ofList ((c :: cs).take length)), .behind (length - 1))
    else if c = '\'' ∨ c = '"' then
      (quotedBody c cs).map fun (body, rest) => (quoted c (String.ofList body), rest.later)
    else (marks.find? fun m => m.toList.isPrefixOf (c :: cs)).map fun m =>
      (mark m, .behind (m.length - 1))

/-- What follows the end of a block comment. -/
def afterComment? : (cs : List Char) → Option (Rest cs)
  | [] => none
  | '*' :: '/' :: _ => some Rest.tail.later
  | _ :: cs => (afterComment? cs).map .later

/-- The tokens of a text. -/
def all? (cs : List Char) : Option (List Token) :=
  match cs with
  | [] => some []
  | '/' :: '*' :: cs => match afterComment? cs with
    | none => none
    | some ⟨rest, _shorter⟩ => all? rest
  | '/' :: '/' :: cs => all? (cs.dropWhile fun c => !endsLine c)
  | c :: cs =>
    if isBlank c then all? cs
    else match read (c :: cs) with
      | none => none
      | some (token, ⟨rest, _shorter⟩) => (all? rest).map (token :: ·)
termination_by cs.length
decreasing_by
  · simp only [List.length_cons]
    omega
  · have noLonger := (List.dropWhile_sublist (l := cs) fun c => !endsLine c).length_le
    simp only [List.length_cons]
    omega
  · simp only [List.length_cons]
    omega
  · exact _shorter

end Token

end QueryCompiler.Closure
