import Mathlib
import QueryCompiler.OData.Options
import QueryCompiler.Proofs.Leaves
import QueryCompiler.Proofs.Readers

/-!
# Reading conditions of a request

A condition is comparisons joined by `and` and `or`. Parentheses group, `and` binds tighter than
`or`, and what stands between quotes is one text, in which a quote is written twice. The text is cut
into tokens first (`Token.ofChars?`), and the tokens are read by the grammar (`Condition.reader`).
-/

namespace QueryCompiler.OData

open Grammar

/-- A literal as it is read. -/
inductive Literal
  /-- A number or one of the words for the other literals; also the name of a property. -/
  | bare (word : String)
  | quoted (text : String)
  /-- A text with its kind in front of the quotes. -/
  | marked (kind text : String)
deriving DecidableEq

/-- The left side of a comparison as it is read. -/
inductive Left
  | property (name : String)
  | call (function : String) (arguments : List Literal)
deriving DecidableEq

/-- A comparison as it is read. -/
structure Comparison where
  left : Left
  relation : Relation
  literal : Literal
deriving DecidableEq

/-- A condition as it is read. -/
inductive Condition
  | comparison (comparison : Comparison)
  | joined (connective : Connective) (left right : Condition)

/-- Whether a condition holds, given which comparisons do. -/
def Condition.holds (truth : Comparison → Bool) : Condition → Bool
  | comparison c => truth c
  | joined connective left right => connective.holds [left.holds truth, right.holds truth]

/-! ## Tokens -/

/-- A token of a condition. -/
inductive Token
  | opening
  | closing
  | comma
  | connective (connective : Connective)
  | word (w : String)
  | quoted (text : String)
deriving DecidableEq

namespace Token

/-- The character belongs to a word. -/
def isWordChar (c : Char) : Bool :=
  c ≠ ' ' && c ≠ '(' && c ≠ ')' && c ≠ ',' && c ≠ '\''

/-- The token that a run of characters is. -/
def ofWord (cs : List Char) : Token :=
  if cs = "and".toList then connective .and
  else if cs = "or".toList then connective .or
  else word (String.ofList cs)

/-- Reads up to the closing quote. Two quotes are a quote of the text. -/
def quotedText : Reader Char (List Char)
  | [] => none
  | '\'' :: '\'' :: cs =>
    (quotedText cs).map fun (text, rest) => ('\'' :: text, rest.later.later)
  | '\'' :: _ => some ([], .tail)
  | c :: cs => (quotedText cs).map fun (text, rest) => (c :: text, rest.later)

/-- Reads the token at the front, which is no blank. -/
def read : Reader Char Token
  | [] => none
  | '(' :: _ => some (opening, .tail)
  | ')' :: _ => some (closing, .tail)
  | ',' :: _ => some (comma, .tail)
  | '\'' :: cs =>
    (quotedText cs).map fun (text, rest) => (quoted (String.ofList text), rest.later)
  | c :: cs => some (ofWord (c :: cs.takeWhile isWordChar), .behindWhile isWordChar)

/-- The tokens of a text. -/
def ofChars? (cs : List Char) : Option (List Token) :=
  match cs with
  | [] => some []
  | ' ' :: cs => ofChars? cs
  | c :: cs => match read (c :: cs) with
    | none => none
    | some (token, ⟨rest, _shorter⟩) => (ofChars? rest).map (token :: ·)
termination_by cs.length
decreasing_by
  · exact Nat.lt_succ_self _
  · exact _shorter

/-- A word that is no connective. -/
def word? : Token → Option String
  | word w => some w
  | _ => none

/-- What stood between quotes. -/
def quoted? : Token → Option String
  | quoted text => some text
  | _ => none

/-- A given connective. -/
def connective? (c : Connective) : Token → Option Unit
  | connective d => if d = c then some () else none
  | _ => none

/-- A word for a relation. -/
def relation? : Token → Option Relation
  | word w => [.eq, .ne, .gt, .ge, .lt, .le].find? fun relation => relation.word = w
  | _ => none

end Token

/-! ## The grammar -/

/-- Reads a literal. -/
def Literal.reader : Reader Token Literal :=
  ((Reader.item Token.word?).andThen fun kind => (Reader.item Token.quoted?).map (.marked kind)).orElse
    (((Reader.item Token.word?).map .bare).orElse ((Reader.item Token.quoted?).map .quoted))

/-- Reads the left side of a comparison. -/
def Left.reader : Reader Token Left :=
  ((Reader.item Token.word?).andThen fun function => (Reader.exactly .opening).andThen fun _ =>
    (Literal.reader.enclosed .comma .closing).map (.call function)).orElse
  ((Reader.item Token.word?).map .property)

/-- Reads a comparison. -/
def Comparison.reader : Reader Token Comparison :=
  Left.reader.andThen fun left => (Reader.item Token.relation?).andThen fun relation =>
    Literal.reader.map fun literal => ⟨left, relation, literal⟩

namespace Condition

/-- Reads a comparison, or a condition between parentheses. -/
def operand (condition : Reader Token Condition) : Reader Token Condition :=
  (Comparison.reader.map .comparison).orElse ((Reader.exactly .opening).andThen fun _ =>
    condition.andThen fun c => (Reader.exactly .closing).map fun _ => c)

/-- Reads what `operand` reads, with a connective in between. -/
def chain (connective : Connective) (operand : Reader Token Condition) : Reader Token Condition :=
  operand.chain (Token.connective? connective) fun left _ right => joined connective left right

/-- Reads a condition in which parentheses are less than `depth` deep. -/
def reader : (depth : Nat) → Reader Token Condition
  | 0 => fun _ => none
  | depth + 1 => chain .or (chain .and (operand (reader depth)))

/-- The condition that a text is. -/
def ofText? (text : String) : Option Condition := do
  let tokens ← Token.ofChars? text.toList
  (reader tokens.length).all? tokens

end Condition

/-! ## What is read -/

namespace Literal

/-- The tokens of a literal. -/
def tokens : Literal → List Token
  | bare w => [.word w]
  | quoted text => [.quoted text]
  | marked kind text => [.word kind, .quoted text]

theorem reads_reader (l : Literal) {rest : List Token}
    (h : ∀ t ∈ rest.head?, t.quoted? = none) : Reads reader (l.tokens ++ rest) l rest := by
  cases l with
  | bare w =>
    refine .orElse_right (andThen_eq_none fun kind ys hkind => map_eq_none ?_) (.orElse_left ?_)
    · obtain ⟨_, hkind⟩ := hkind
      cases hkind
      exact item_eq_none h
    · exact Reads.map _ (.item rfl)
  | quoted text =>
    refine .orElse_right (andThen_eq_none_of_eq_none rfl) (.orElse_right rfl ?_)
    exact Reads.map _ (.item rfl)
  | marked kind text =>
    exact .orElse_left (Reads.andThen (.item rfl) (Reads.map _ (.item rfl)))

/-- The tokens of some literals with commas in between. -/
def listTokens : List Literal → List Token
  | [] => []
  | [l] => l.tokens
  | l :: rest => l.tokens ++ .comma :: listTokens rest

theorem readsList_reader {rest : List Token} : ∀ {l : Literal} {ls : List Literal},
    ReadsList reader .comma .closing (listTokens (l :: ls) ++ .closing :: rest) (l :: ls) rest
  | l, [] => .last (l.reads_reader (by simp [Token.quoted?]))
  | l, l' :: ls => by
    rw [listTokens, List.append_assoc]
    exact .step (l.reads_reader (by simp [Token.quoted?])) readsList_reader
    simp

theorem head?_listTokens (l : Literal) (ls : List Literal) (rest : List Token) :
    .closing ∉ (listTokens (l :: ls) ++ rest).head? := by
  cases ls <;> cases l <;> simp [listTokens, tokens]

end Literal

namespace Left

/-- The tokens of a left side. -/
def tokens : Left → List Token
  | property name => [.word name]
  | call function arguments =>
    .word function :: .opening :: (Literal.listTokens arguments ++ [.closing])

theorem reads_reader (l : Left) {rest : List Token} (h : .opening ∉ rest.head?) :
    Reads reader (l.tokens ++ rest) l rest := by
  cases l with
  | property name =>
    refine .orElse_right (andThen_eq_none fun function ys hfunction => ?_) (Reads.map _ (.item rfl))
    obtain ⟨_, hfunction⟩ := hfunction
    cases hfunction
    exact andThen_eq_none_of_eq_none (exactly_eq_none h)
  | call function arguments =>
    have harguments : Reads (Literal.reader.enclosed .comma .closing)
        (Literal.listTokens arguments ++ .closing :: rest) arguments rest := by
      cases arguments with
      | nil => exact .enclosed_nil
      | cons l ls =>
        exact Literal.readsList_reader.enclosed (by decide) (Literal.head?_listTokens l ls _)
    refine .orElse_left (Reads.andThen (.item rfl) (Reads.andThen (.exactly _) ?_))
    simpa using harguments.map (Left.call function)

end Left

namespace Comparison

/-- The tokens of a comparison. -/
def tokens (c : Comparison) : List Token :=
  c.left.tokens ++ .word c.relation.word :: c.literal.tokens

theorem reads_reader (c : Comparison) {rest : List Token}
    (h : ∀ t ∈ rest.head?, t.quoted? = none) : Reads reader (c.tokens ++ rest) c rest := by
  have hrelation : Token.relation? (.word c.relation.word) = some c.relation := by
    cases c.relation <;> decide
  rw [tokens, List.append_assoc]
  refine (c.left.reads_reader (by simp)).andThen (Reads.andThen (.item hrelation) ?_)
  exact (c.literal.reads_reader h).map _

end Comparison

namespace Condition

/-- What may follow a part of a condition. -/
def Ends (rest : List Token) : Prop :=
  ∀ t ∈ rest.head?, t = .closing ∨ ∃ connective, t = .connective connective

/-- The tokens are read as an operand, whatever follows them. Its parentheses are no deeper than it
is long. -/
def IsOperand (tokens : List Token) (c : Condition) : Prop :=
  ∀ depth, tokens.length ≤ depth + 1 → ∀ rest, Ends rest →
    Reads (operand (reader depth)) (tokens ++ rest) c rest

theorem isOperand_comparison (c : Comparison) : IsOperand c.tokens (.comparison c) := by
  intro depth _ rest hrest
  refine .orElse_left ((c.reads_reader ?_).map _)
  intro t ht
  rcases hrest t ht with rfl | ⟨connective, rfl⟩ <;> rfl

/-- A piece of a condition: its tokens, and what they are read as. -/
abbrev Piece := List Token × Condition

/-- The tokens of some pieces with a connective in between. -/
def runTokens (connective : Connective) (first : Piece) (others : List Piece) : List Token :=
  first.1 ++ others.flatMap fun piece => .connective connective :: piece.1

/-- The pieces joined from the left. -/
def run (connective : Connective) (first : Piece) (others : List Piece) : Condition :=
  others.foldl (fun left piece => .joined connective left piece.2) first.2

theorem connective?_eq_none {connective : Connective} {rest : List Token}
    (h : .connective connective ∉ rest.head?) :
    ∀ t ∈ rest.head?, t.connective? connective = none := by
  intro t ht
  cases t with
  | connective c =>
    refine if_neg ?_
    rintro rfl
    exact h ht
  | _ => rfl

/-- An operand alone is read as a chain. -/
theorem reads_chain_single {p : Reader Token Condition} {connective : Connective}
    {xs : List Token} {c : Condition} {rest : List Token} (h : Reads p xs c rest)
    (hstop : .connective connective ∉ rest.head?) : Reads (chain connective p) xs c rest :=
  h.chain (.stop (connective?_eq_none hstop))

theorem readsChain_run {p : Reader Token Condition} {connective : Connective}
    {E : List Token → Prop} (hE : ∀ ts, E (.connective connective :: ts)) {rest : List Token}
    (hrest : E rest) (hstop : .connective connective ∉ rest.head?) :
    ∀ {others : List Piece} (left : Condition),
    (∀ piece ∈ others, ∀ ts, E ts → Reads p (piece.1 ++ ts) piece.2 ts) →
      ReadsChain p (Token.connective? connective) (fun left _ right => joined connective left right)
        left ((others.flatMap fun piece => .connective connective :: piece.1) ++ rest)
        (run connective ([], left) others) rest
  | [], left, _ => .stop (connective?_eq_none hstop)
  | piece :: others, left, h => by
    have hnext : E ((others.flatMap fun piece => .connective connective :: piece.1) ++ rest) := by
      cases others with
      | nil => exact hrest
      | cons => exact hE _
    rw [List.flatMap_cons, List.append_assoc, List.cons_append]
    refine .step (if_pos rfl) (h piece List.mem_cons_self _ hnext) ?_
    exact readsChain_run hE hrest hstop _ fun piece hpiece =>
      h piece (List.mem_cons_of_mem _ hpiece)

/-- Pieces with a connective in between are read from the left if each of them is read. -/
theorem reads_chain {p : Reader Token Condition} {connective : Connective}
    {E : List Token → Prop} (hE : ∀ ts, E (.connective connective :: ts)) {first : Piece}
    {others : List Piece}
    (h : ∀ piece ∈ first :: others, ∀ ts, E ts → Reads p (piece.1 ++ ts) piece.2 ts)
    {rest : List Token} (hrest : E rest) (hstop : .connective connective ∉ rest.head?) :
    Reads (chain connective p) (runTokens connective first others ++ rest)
      (run connective first others) rest := by
  have hnext : E ((others.flatMap fun piece => .connective connective :: piece.1) ++ rest) := by
    cases others with
    | nil => exact hrest
    | cons => exact hE _
  rw [runTokens, List.append_assoc]
  exact (h first List.mem_cons_self _ hnext).chain (readsChain_run hE hrest hstop first.2
    fun piece hpiece => h piece (List.mem_cons_of_mem _ hpiece))

theorem length_le_runTokens {connective : Connective} {first : Piece} {others : List Piece} :
    ∀ piece ∈ first :: others, piece.1.length ≤ (runTokens connective first others).length := by
  intro piece hpiece
  rw [runTokens, List.length_append]
  rcases List.mem_cons.mp hpiece with rfl | hpiece
  · exact Nat.le_add_right _ _
  · have hsub : piece.1.Sublist
        (others.flatMap fun piece => .connective connective :: piece.1) :=
      (List.sublist_cons_self _ _).trans (List.sublist_flatten_of_mem
        (List.mem_map_of_mem hpiece))
    exact hsub.length_le.trans (Nat.le_add_left _ _)

/-- A run of operands is read as a condition. -/
theorem reads_run {connective : Connective} {first : Piece} {others : List Piece}
    (h : ∀ piece ∈ first :: others, IsOperand piece.1 piece.2) {depth : ℕ}
    (hdepth : (runTokens connective first others).length ≤ depth + 1) {rest : List Token}
    (hrest : ∀ t ∈ rest.head?, t = .closing) :
    Reads (reader (depth + 1)) (runTokens connective first others ++ rest)
      (run connective first others) rest := by
  have hends : Ends rest := fun t ht => .inl (hrest t ht)
  have hstop : ∀ c, .connective c ∉ rest.head? := fun c hc => Token.noConfusion (hrest _ hc)
  have hpiece : ∀ piece ∈ first :: others, ∀ ts, Ends ts →
      Reads (operand (reader depth)) (piece.1 ++ ts) piece.2 ts := fun piece hmem =>
    h piece hmem depth ((length_le_runTokens piece hmem).trans hdepth)
  cases connective with
  | and =>
    have hand : ∀ ts, Ends (.connective .and :: ts) := fun ts t ht =>
      .inr ⟨.and, by simpa using ht.symm⟩
    exact reads_chain_single (reads_chain hand hpiece hends (hstop .and)) (hstop .or)
  | or =>
    -- In a run of `or` each operand is a chain of `and` by itself.
    refine reads_chain (E := fun ts => Ends ts ∧ .connective .and ∉ ts.head?) ?_ ?_
      ⟨hends, hstop .and⟩ (hstop .or)
    · exact fun ts => ⟨fun t ht => .inr ⟨.or, by simpa using ht.symm⟩, by simp⟩
    · exact fun piece hmem ts hts => reads_chain_single (hpiece piece hmem ts hts.1) hts.2

/-- A run of operands between parentheses is an operand. -/
theorem isOperand_enclosed {connective : Connective} {first : Piece} {others : List Piece}
    (h : ∀ piece ∈ first :: others, IsOperand piece.1 piece.2) :
    IsOperand (.opening :: (runTokens connective first others ++ [.closing]))
      (run connective first others) := by
  intro depth hdepth rest _
  simp only [List.length_cons, List.length_append, List.length_nil] at hdepth
  obtain ⟨depth, rfl⟩ : ∃ d, depth = d + 1 := ⟨depth - 1, by omega⟩
  have hlength : (runTokens connective first others).length ≤ depth + 1 := by omega
  have hclosing : ∀ t ∈ (Token.closing :: rest).head?, t = .closing := by simp
  have hrun := reads_run h hlength hclosing
  rw [List.cons_append, List.append_assoc]
  refine .orElse_right (map_eq_none (andThen_eq_none_of_eq_none ?_)) (.andThen (.exactly _) ?_)
  · exact orElse_eq_none (andThen_eq_none_of_eq_none rfl) rfl
  · exact hrun.andThen ((Reads.exactly _).map _)

theorem IsOperand.ne_nil {tokens : List Token} {c : Condition} (h : IsOperand tokens c) :
    tokens ≠ [] := by
  rintro rfl
  obtain ⟨hlt, -⟩ := h 0 (Nat.zero_le _) [] (by simp [Ends])
  cases hlt

/-- A text whose tokens are a run of operands is the run. -/
theorem ofText?_run {connective : Connective} {first : Piece} {others : List Piece}
    (h : ∀ piece ∈ first :: others, IsOperand piece.1 piece.2) {text : String}
    (htext : Token.ofChars? text.toList = some (runTokens connective first others)) :
    ofText? text = some (run connective first others) := by
  have hpos : 0 < (runTokens connective first others).length :=
    (List.length_pos_of_ne_nil (h first List.mem_cons_self).ne_nil).trans_le
      (length_le_runTokens first List.mem_cons_self)
  obtain ⟨depth, hdepth⟩ := Nat.exists_eq_succ_of_ne_zero hpos.ne'
  have hnone : ∀ t ∈ ([] : List Token).head?, t = .closing := by simp
  have hrun := reads_run h hdepth.le hnone
  rw [List.append_nil, ← Nat.succ_eq_add_one, ← hdepth] at hrun
  simp only [ofText?, htext, Option.bind_eq_bind, Option.bind_some,
    all?_eq_some_iff.mpr hrun]

end Condition

end QueryCompiler.OData
