import QueryCompiler.Closure.Node
import QueryCompiler.Closure.Token
import QueryCompiler.Decimal.Number
import QueryCompiler.Value

/-!
# The grammar of closures

A closure is written as a function, as parameters with an arrow, or as a bare expression. Operators
have six ranks and group to the left; in front of an operand stand signs and negations, behind it
properties and calls. The grammar looks at tokens, and needs no more than the next one to choose,
but for the parenthesis that may open parameters or an expression.
-/

namespace QueryCompiler.Closure

open Grammar (Reader)

/-- Words that are no names. -/
def keywords : List String := ["true", "false", "null", "function", "return"]

/-- A name, which is no keyword. -/
def name? : Token → Option String
  | .word w => if w ∈ keywords then none else some w
  | _ => none

/-- The character that a backslash and a letter stand for. -/
def unescaped (c : Char) : Char :=
  match c with
  | 'n' => '\n'
  | 't' => '\t'
  | 'r' => '\r'
  | '0' => '\x00'
  | 'b' => '\x08'
  | 'f' => '\x0c'
  | 'v' => '\x0b'
  | c => c

/-- The text that the inside of quotes stands for. -/
def unescape : List Char → List Char
  | '\\' :: c :: cs => unescaped c :: unescape cs
  | '\\' :: [] => []
  | c :: cs => c :: unescape cs
  | [] => []

/-- The number that a numeral writes, infinite if it is too large. -/
def numeralValue (raw : String) : Json :=
  let cs := raw.toList
  match if cs.all Char.isDigit then int64? (Text.digitsValue cs) else none with
  | some n => .integer n.toInt
  | none => .float (((Decimal.ofChars? cs).map Decimal.toFloat).getD 0.0)

/-- The numeral writes a number that is too large. -/
def isTooLarge (raw : String) : Bool :=
  match numeralValue raw with
  | .float x => !x.isFinite
  | _ => false

/-- A literal. -/
def literal? : Token → Option Node
  | .numeral raw => some (.literal (numeralValue raw) raw)
  | .quoted quote body =>
    some (.literal (.string (String.ofList (unescape body.toList)))
      (quote.toString ++ body ++ quote.toString))
  | .word "true" => some (.literal (.bool true) "true")
  | .word "false" => some (.literal (.bool false) "false")
  | .word "null" => some (.literal .null "null")
  | _ => none

/-- An operand of one token. -/
def atom? (token : Token) : Option Node :=
  literal? token <|> (name? token).map .identifier

/-- One of some marks. -/
def markIn (marks : List String) : Token → Option String
  | .mark m => if m ∈ marks then some m else none
  | _ => none

/-- A given mark. -/
def mark (m : String) : Reader Token Unit := Reader.exactly (.mark m)

/-- A given keyword. -/
def keyword (w : String) : Reader Token Unit := Reader.exactly (.word w)

/-- Reads what `p` reads, between two marks. -/
def between {α : Type} (opening closing : String) (p : Reader Token α) : Reader Token α :=
  (mark opening).andThen fun _ => p.andThen fun a => (mark closing).map fun _ => a

/-- Operands with one of some operators between them. -/
def rank (build : String → Option Node → Option Node → Node) (operators : List String)
    (operand : Reader Token Node) : Reader Token Node :=
  operand.chain (markIn operators) fun left operator right => build operator (some left) (some right)

/-- What stands behind an operand. -/
def suffix (expression : Reader Token Node) : Reader Token (Node → Node) :=
  let property := (mark ".").andThen fun _ => (Reader.item name?).map fun name =>
    fun object => Node.member false object (.identifier name)
  let call := (mark "(").andThen fun _ =>
    (expression.enclosed (.mark ",") (.mark ")")).map fun arguments =>
      fun callee => Node.call callee arguments
  property.orElse call

/-- An operand with what stands behind it. -/
def operand (expression : Reader Token Node) : Reader Token Node :=
  let first := (Reader.item atom?).orElse (between "(" ")" expression)
  fun tokens => (first tokens).map fun (node, rest) =>
    let (suffixes, last) := Reader.many (suffix expression) rest
    (suffixes.foldl (fun node suffix => suffix node) node, rest.andThen last)

/-- An operand with what stands in front of it and behind it. -/
def signedOperand (expression : Reader Token Node) : Reader Token Node :=
  fun tokens =>
    let (operators, rest) := Reader.many (Reader.item (markIn ["!", "-"])) tokens
    (operand expression rest).map fun (node, last) =>
      (operators.foldr (fun operator node => .unary operator node true) node, last.within rest.2)

/-- Reads an expression in which parentheses are at most `depth` deep. -/
def expression : (depth : Nat) → Reader Token Node
  | 0 => fun _ => none
  | depth + 1 =>
    let product := rank .binary ["*", "/", "%"] (signedOperand (expression depth))
    let sum := rank .binary ["+", "-"] product
    let relation := rank .binary [">=", "<=", ">", "<"] sum
    let equality := rank .binary ["===", "!==", "==", "!="] relation
    let conjunction := rank .logical ["&&"] equality
    rank .logical ["||"] conjunction

/-- An expression between braces, which may be returned and be ended by a semicolon. -/
def block (body : Reader Token Node) : Reader Token Node :=
  (mark "\x7b").andThen fun _ =>
    (((keyword "return").andThen fun _ => body).orElse body).andThen fun node =>
      ((mark "\x7d").orElse ((mark ";").andThen fun _ => mark "\x7d")).map fun _ => node

/-- Names up to a closing mark. -/
def names (closing : String) : Reader Token (List String) :=
  (Reader.item name?).enclosed (.mark ",") (.mark closing)

/-- A function, which may have a name. -/
def functionForm (body : Reader Token Node) : Reader Token Closure :=
  let rest := (mark "(").andThen fun _ =>
    (names ")").andThen fun parameters => (block body).map fun node => ⟨parameters, node⟩
  (keyword "function").andThen fun _ => ((Reader.item name?).andThen fun _ => rest).orElse rest

/-- Parameters, in parentheses or not, and an arrow. -/
def arrowForm (body : Reader Token Node) : Reader Token Closure :=
  let parenthesised := (mark "(").andThen fun _ =>
    (names ")").andThen fun parameters => (mark "=>").map fun _ => parameters
  (parenthesised.orElse (names "=>")).andThen fun parameters =>
    ((block body).orElse body).map fun node => ⟨parameters, node⟩

/-- A closure in one of its forms. -/
def form (body : Reader Token Node) : Reader Token Closure :=
  (functionForm body).orElse ((arrowForm body).orElse (body.map fun node => ⟨[], node⟩))

/-- The closure that some tokens write, a semicolon behind it or not. -/
def ofTokens? (tokens : List Token) : Option Closure :=
  match form (expression tokens.length) tokens with
  | some (closure, ⟨[], _⟩) => some closure
  | some (closure, ⟨[.mark ";"], _⟩) => some closure
  | _ => none

/-- The first numeral that is too large. -/
def tooLarge? (tokens : List Token) : Option String :=
  tokens.findSome? fun token => match token with
    | .numeral raw => if isTooLarge raw then some raw else none
    | _ => none

end QueryCompiler.Closure
