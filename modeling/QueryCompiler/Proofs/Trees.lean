import QueryCompiler.Closure.Lowering
import QueryCompiler.Proofs.Spelling

/-!
# Written trees

`Tree` has the expressions that closures can write, one constructor for each form. `Tree.node` is the
tree as the grammar builds it, and `Tree.tokens` writes it with the parentheses that it needs and no
others: each tree has a looseness, and stands in parentheses where it is looser than its place allows.
-/

namespace QueryCompiler.Closure

/-! ## Trees -/

/-- A name that is no keyword. -/
structure Name where
  text : String
  wellSpelled : (Token.word text).WellSpelled
  notKeyword : text ∉ keywords

/-- Digits that write an integer of 64 bits. -/
structure Numeral where
  digits : String
  wellSpelled : (Token.numeral digits).WellSpelled
  inRange : (Text.digitsValue digits.toList : ℤ) ≤ Int64.maxValue.toInt

/-- The literals that are words. -/
inductive Constant
  | yes
  | no
  | null
deriving DecidableEq

/-- A quotation mark. -/
inductive Quote
  | single
  | double
deriving DecidableEq

/-- An operator in front of its operand. -/
inductive MonadicOperator
  | not
  | minus
deriving DecidableEq

/-- An operator between its operands. -/
inductive DyadicOperator
  | or
  | and
  | eq
  | ne
  | strictEq
  | strictNe
  | gt
  | ge
  | lt
  | le
  | add
  | sub
  | mul
  | div
  | mod
deriving DecidableEq

/-- An expression that a closure can write. -/
inductive Tree
  | name (name : Name)
  | numeral (numeral : Numeral)
  | constant (constant : Constant)
  | quoted (quote : Quote) (text : String)
  | monadic (operator : MonadicOperator) (operand : Tree)
  | dyadic (operator : DyadicOperator) (left right : Tree)
  | member (object : Tree) (property : Name)
  | call (callee : Tree) (arguments : List Tree)

def Constant.text : Constant → String
  | yes => "true"
  | no => "false"
  | null => "null"

def Constant.value : Constant → Json
  | yes => .bool true
  | no => .bool false
  | null => .null

def Quote.char : Quote → Char
  | single => '\''
  | double => '"'

/-- What stands between the quotation marks. -/
def Quote.body (quote : Quote) (text : String) : String :=
  String.ofList (Token.escaped quote.char text.toList)

def MonadicOperator.sign : MonadicOperator → String
  | not => "!"
  | minus => "-"

namespace DyadicOperator

def sign : DyadicOperator → String
  | or => "||"
  | and => "&&"
  | eq => "=="
  | ne => "!="
  | strictEq => "==="
  | strictNe => "!=="
  | gt => ">"
  | ge => ">="
  | lt => "<"
  | le => "<="
  | add => "+"
  | sub => "-"
  | mul => "*"
  | div => "/"
  | mod => "%"

/-- The rank of the operator; one of a lower rank holds its operands tighter. -/
def rank : DyadicOperator → ℕ
  | mul | div | mod => 0
  | add | sub => 1
  | gt | ge | lt | le => 2
  | eq | ne | strictEq | strictNe => 3
  | and => 4
  | or => 5

theorem rank_le (operator : DyadicOperator) : operator.rank ≤ 5 := by
  cases operator <;> decide

/-- The expression of an operator and its operands. -/
def node (operator : DyadicOperator) (left right : Node) : Node :=
  match operator with
  | or | and => .logical operator.sign (some left) (some right)
  | _ => .binary operator.sign (some left) (some right)

end DyadicOperator

namespace Tree

mutual

/-- The tree that the grammar builds. -/
def node : Tree → Node
  | name n => .identifier n.text
  | numeral n => .literal (.integer (Text.digitsValue n.digits.toList)) n.digits
  | constant c => .literal c.value c.text
  | quoted q text => .literal (.string text) (q.char.toString ++ q.body text ++ q.char.toString)
  | monadic op x => .unary op.sign (node x) true
  | dyadic op x y => op.node (node x) (node y)
  | member x n => .member false (node x) (.identifier n.text)
  | call x arguments => .call (node x) (nodes arguments)

def nodes : List Tree → List Node
  | [] => []
  | x :: xs => node x :: nodes xs

end

/-! ## Parentheses -/

/-- How loosely the tree holds together: operands with what stands behind them hold best, then signs
and negations, and then the operators by their ranks. -/
def looseness : Tree → ℕ
  | dyadic op _ _ => op.rank + 2
  | monadic _ _ => 1
  | _ => 0

/-- The tokens, in parentheses if they need them. -/
def grouped (needed : Bool) (tokens : List Token) : List Token :=
  if needed then .mark "(" :: (tokens ++ [.mark ")"]) else tokens

mutual

/-- The tokens of a tree without parentheses around them. On the right of an operator stands a tree
that holds tighter than the operator does, on its left one that is not looser. -/
def bare : Tree → List Token
  | name n => [.word n.text]
  | numeral n => [.numeral n.digits]
  | constant c => [.word c.text]
  | quoted q text => [.quoted q.char (q.body text)]
  | monadic op x => .mark op.sign :: grouped (1 < x.looseness) (bare x)
  | dyadic op x y =>
    grouped (op.rank + 2 < x.looseness) (bare x) ++
      .mark op.sign :: grouped (op.rank + 1 < y.looseness) (bare y)
  | member x n => grouped (0 < x.looseness) (bare x) ++ [.mark ".", .word n.text]
  | call x arguments =>
    grouped (0 < x.looseness) (bare x) ++ .mark "(" :: (listed arguments ++ [.mark ")"])

/-- The tokens of trees with commas between them. -/
def listed : List Tree → List Token
  | [] => []
  | [x] => bare x
  | x :: y :: rest => bare x ++ .mark "," :: listed (y :: rest)

end

/-- The tokens of a tree in a place where it may be as loose as `n`. -/
def tokens (n : ℕ) (t : Tree) : List Token :=
  grouped (n < t.looseness) t.bare

theorem looseness_le (t : Tree) : t.looseness ≤ 7 := by
  cases t with
  | dyadic op =>
    have hrank := op.rank_le
    rw [looseness]
    omega
  | _ => simp [looseness]

theorem tokens_of_le {n : ℕ} {t : Tree} (h : t.looseness ≤ n) : t.tokens n = t.bare := by
  rw [tokens, grouped, if_neg (by simpa using h)]

theorem tokens_of_lt {n : ℕ} {t : Tree} (h : n < t.looseness) :
    t.tokens n = .mark "(" :: (t.bare ++ [.mark ")"]) := by
  rw [tokens, grouped, if_pos (by simpa using h)]

end Tree

/-! ## Phrases -/

namespace Token

/-- The token is spelled well, does not begin a function, and writes no number that is too large. -/
structure IsWritten (x : Token) : Prop where
  wellSpelled : x.WellSpelled
  notFunction : x ≠ .word "function"
  notTooLarge : ∀ raw, x = .numeral raw → isTooLarge raw = false

theorem isWritten_mark {m : String} (h : m ∈ expressionMarks) : (mark m).IsWritten :=
  ⟨h, by rintro ⟨⟩, by rintro _ ⟨⟩⟩

end Token

/-- Tokens that begin and end as operands do, and stay what they are without gaps between them. -/
structure IsPhrase (ts : List Token) : Prop where
  first : ∃ x xs, ts = x :: xs ∧ x.BeginsOperand
  last : ∃ xs x, ts = xs ++ [x] ∧ x.EndsOperand
  apart : ts.IsChain Token.Apart
  written : ∀ x ∈ ts, x.IsWritten

namespace IsPhrase

open Token (Apart IsWritten isWritten_mark)

variable {ts us : List Token}

theorem ne_nil (h : IsPhrase ts) : ts ≠ [] := by
  obtain ⟨x, xs, rfl, -⟩ := h.first
  exact List.cons_ne_nil x xs

theorem single {x : Token} (hbegins : x.BeginsOperand) (hends : x.EndsOperand) (h : x.IsWritten) :
    IsPhrase [x] where
  first := ⟨x, [], rfl, hbegins⟩
  last := ⟨[], x, rfl, hends⟩
  apart := List.isChain_singleton x
  written := by simpa using h

theorem monadic {m : String} (hm : m ∈ ["!", "-"]) (h : IsPhrase ts) :
    IsPhrase (.mark m :: ts) where
  first := ⟨.mark m, ts, rfl, by simp_all [Token.BeginsOperand]⟩
  last := by
    obtain ⟨xs, x, rfl, hx⟩ := h.last
    exact ⟨.mark m :: xs, x, rfl, hx⟩
  apart := by
    obtain ⟨x, xs, rfl, hx⟩ := h.first
    have hdot : m ≠ "." := by
      rintro rfl
      simp at hm
    exact List.isChain_cons_cons.mpr ⟨.beforeOperand hdot hx, h.apart⟩
  written := by
    have hm' : m ∈ Token.expressionMarks := by
      simp only [List.mem_cons, List.not_mem_nil, or_false] at hm
      rcases hm with rfl | rfl <;> decide
    simpa using ⟨isWritten_mark hm', h.written⟩

/-- Phrases with an operator or a comma between them. -/
theorem dyadic {m : String} (hm : m ∈ Token.expressionMarks) (hdot : m ≠ ".") (hts : IsPhrase ts)
    (hus : IsPhrase us) : IsPhrase (ts ++ .mark m :: us) where
  first := by
    obtain ⟨x, xs, rfl, hx⟩ := hts.first
    exact ⟨x, _, rfl, hx⟩
  last := by
    obtain ⟨xs, x, rfl, hx⟩ := hus.last
    exact ⟨ts ++ .mark m :: xs, x, by simp, hx⟩
  apart := by
    obtain ⟨x, xs, rfl, hx⟩ := hus.first
    obtain ⟨ys, y, rfl, hy⟩ := hts.last
    have hright := List.isChain_cons_cons.mpr ⟨Apart.beforeOperand hdot hx, hus.apart⟩
    refine hts.apart.append hright ?_
    simpa using Apart.behindOperand hy
  written := by
    have h := hts.written
    have h' := hus.written
    simp only [List.mem_append, List.mem_cons]
    rintro x (hx | rfl | hx)
    · exact h x hx
    · exact isWritten_mark hm
    · exact h' x hx

theorem property {w : String} (hw : (Token.word w).IsWritten) (h : IsPhrase ts) :
    IsPhrase (ts ++ [.mark ".", .word w]) where
  first := by
    obtain ⟨x, xs, rfl, hx⟩ := h.first
    exact ⟨x, _, rfl, hx⟩
  last := ⟨ts ++ [.mark "."], .word w, by simp, trivial⟩
  apart := by
    obtain ⟨ys, y, rfl, hy⟩ := h.last
    refine h.apart.append (List.isChain_pair.mpr .property) ?_
    simpa using Apart.behindOperand hy
  written := by
    have h := h.written
    simp only [List.mem_append, List.mem_cons, List.not_mem_nil, or_false]
    rintro x (hx | rfl | rfl)
    · exact h x hx
    · exact isWritten_mark (by decide)
    · exact hw

theorem isChain_enclosed (h : ts = [] ∨ IsPhrase ts) :
    (Token.mark "(" :: (ts ++ [.mark ")"])).IsChain Apart := by
  rcases h with rfl | h
  · exact List.isChain_pair.mpr .noArguments
  · obtain ⟨x, xs, rfl, hx⟩ := h.first
    refine List.isChain_cons_cons.mpr ⟨.beforeOperand (by decide) hx, ?_⟩
    refine h.apart.append (List.isChain_singleton _) ?_
    obtain ⟨ys, y, hys, hy⟩ := h.last
    rw [hys]
    simpa using Apart.behindOperand hy

theorem written_enclosed (h : ts = [] ∨ IsPhrase ts) :
    ∀ x ∈ Token.mark "(" :: (ts ++ [.mark ")"]), x.IsWritten := by
  simp only [List.mem_append, List.mem_cons, List.not_mem_nil, or_false]
  rintro x (rfl | hx | rfl)
  · exact isWritten_mark (by decide)
  · rcases h with rfl | h
    · cases hx
    · exact h.written x hx
  · exact isWritten_mark (by decide)

theorem enclosed (h : IsPhrase ts) : IsPhrase (.mark "(" :: (ts ++ [.mark ")"])) where
  first := ⟨_, _, rfl, by simp [Token.BeginsOperand]⟩
  last := ⟨.mark "(" :: ts, .mark ")", rfl, rfl⟩
  apart := isChain_enclosed (.inr h)
  written := written_enclosed (.inr h)

theorem call (hus : us = [] ∨ IsPhrase us) (h : IsPhrase ts) :
    IsPhrase (ts ++ .mark "(" :: (us ++ [.mark ")"])) where
  first := by
    obtain ⟨x, xs, rfl, hx⟩ := h.first
    exact ⟨x, _, rfl, hx⟩
  last := ⟨ts ++ .mark "(" :: us, .mark ")", by simp, rfl⟩
  apart := by
    obtain ⟨ys, y, rfl, hy⟩ := h.last
    refine h.apart.append (isChain_enclosed hus) ?_
    simpa using Apart.behindOperand hy
  written := by
    intro x hx
    rcases List.mem_append.mp hx with hx | hx
    · exact h.written x hx
    · exact written_enclosed hus x hx

theorem grouped (h : IsPhrase ts) (needed : Bool) : IsPhrase (Tree.grouped needed ts) := by
  cases needed with
  | true => exact h.enclosed
  | false => exact h

end IsPhrase

theorem Name.isWritten (n : Name) : (Token.word n.text).IsWritten where
  wellSpelled := n.wellSpelled
  notFunction := by
    intro h
    injection h with h
    exact n.notKeyword (by simp [h, keywords])
  notTooLarge := by rintro _ ⟨⟩

theorem exists_int64?_eq {n : ℤ} (hmin : Int64.minValue.toInt ≤ n) (hmax : n ≤ Int64.maxValue.toInt) :
    ∃ m : Int64, int64? n = some m ∧ m.toInt = n := by
  refine ⟨Int64.ofInt n, if_pos ⟨hmin, hmax⟩, ?_⟩
  have hmin' : Int64.minValue.toInt = -2 ^ 63 := by decide
  have hmax' : Int64.maxValue.toInt = 2 ^ 63 - 1 := by decide
  exact Int64.toInt_ofInt_of_le (by omega) (by omega)

theorem Numeral.exists_int64? (n : Numeral) :
    ∃ m : Int64, int64? (Text.digitsValue n.digits.toList) = some m ∧
      m.toInt = Text.digitsValue n.digits.toList :=
  exists_int64?_eq (le_trans (by decide) (Int.natCast_nonneg _)) n.inRange

theorem Numeral.numeralValue_digits (n : Numeral) :
    numeralValue n.digits = .integer (Text.digitsValue n.digits.toList) := by
  have hall : n.digits.toList.all Char.isDigit = true := List.all_eq_true.mpr n.wellSpelled.2
  obtain ⟨m, hint, hm⟩ := n.exists_int64?
  unfold numeralValue
  simp only [hall, if_true, hint, hm]

theorem Numeral.isWritten (n : Numeral) : (Token.numeral n.digits).IsWritten where
  wellSpelled := n.wellSpelled
  notFunction := by rintro ⟨⟩
  notTooLarge := by
    rintro _ ⟨⟩
    rw [isTooLarge, n.numeralValue_digits]

theorem Constant.isWritten (c : Constant) : (Token.word c.text).IsWritten where
  wellSpelled := by
    cases c
    · exact ⟨'t', ['r', 'u', 'e'], rfl, by decide, List.all_eq_true.mp (by decide)⟩
    · exact ⟨'f', ['a', 'l', 's', 'e'], rfl, by decide, List.all_eq_true.mp (by decide)⟩
    · exact ⟨'n', ['u', 'l', 'l'], rfl, by decide, List.all_eq_true.mp (by decide)⟩
  notFunction := by
    cases c <;> simp [text]
  notTooLarge := by rintro _ ⟨⟩

theorem Quote.isWritten (q : Quote) (text : String) : (Token.quoted q.char (q.body text)).IsWritten where
  wellSpelled := by
    refine ⟨?_, text.toList, String.toList_ofList⟩
    cases q
    · exact .inl rfl
    · exact .inr rfl
  notFunction := by rintro ⟨⟩
  notTooLarge := by rintro _ ⟨⟩

theorem MonadicOperator.sign_mem (op : MonadicOperator) : op.sign ∈ ["!", "-"] := by
  cases op <;> decide

theorem DyadicOperator.sign_mem (op : DyadicOperator) : op.sign ∈ Token.expressionMarks := by
  cases op <;> decide

theorem DyadicOperator.sign_ne_point (op : DyadicOperator) : op.sign ≠ "." := by
  cases op <;> decide

namespace Tree

mutual

theorem isPhrase_bare : ∀ t : Tree, IsPhrase t.bare
  | name n => .single trivial trivial n.isWritten
  | numeral n => .single trivial trivial n.isWritten
  | constant c => .single trivial trivial c.isWritten
  | quoted q text => .single trivial trivial (q.isWritten text)
  | monadic op x => by
    rw [bare]
    exact ((isPhrase_bare x).grouped _).monadic op.sign_mem
  | dyadic op x y => by
    rw [bare]
    exact .dyadic op.sign_mem op.sign_ne_point ((isPhrase_bare x).grouped _)
      ((isPhrase_bare y).grouped _)
  | member x n => by
    rw [bare]
    exact ((isPhrase_bare x).grouped _).property n.isWritten
  | call x arguments => by
    rw [bare]
    refine ((isPhrase_bare x).grouped _).call ?_
    by_cases h : arguments = []
    · subst h
      exact .inl rfl
    · exact .inr (isPhrase_listed arguments h)

theorem isPhrase_listed : ∀ ts : List Tree, ts ≠ [] → IsPhrase (listed ts)
  | [], h => absurd rfl h
  | [x], _ => isPhrase_bare x
  | x :: y :: rest, _ => by
    rw [listed]
    exact .dyadic (by decide) (by decide) (isPhrase_bare x)
      (isPhrase_listed (y :: rest) (List.cons_ne_nil y rest))

end

theorem isPhrase_tokens (n : ℕ) (t : Tree) : IsPhrase (t.tokens n) :=
  t.isPhrase_bare.grouped _

end Tree

end QueryCompiler.Closure
