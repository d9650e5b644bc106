import Mathlib
import QueryCompiler.Proofs.ArrowText
import QueryCompiler.Proofs.SqlConditions

/-!
# Methods of texts

A closure that compares what a method of a field gives is parsed, lowered with the standard methods
and written in SQL, and the condition is read again as a database reads it. What the database makes of
a row is then set against what the closure says of it; a text is the list of its characters in both.

`indexOf` counts from zero and `LOCATE` from one, and the number that it is compared with stays as it
is. So the condition is that of the next number (`holds?_indexOf`). A substring is the same text on
both sides, except that one without any characters is taken for one without an end
(`called?_substring`).
-/

namespace QueryCompiler.Closure

/-! ## Comparisons -/

namespace DyadicOperator

/-- The comparisons. -/
def comparisons : List DyadicOperator := [eq, ne, strictEq, strictNe, gt, ge, lt, le]

/-- Whether two integers compare so. -/
def holds : DyadicOperator → ℤ → ℤ → Bool
  | eq, a, b | strictEq, a, b => a = b
  | ne, a, b | strictNe, a, b => a ≠ b
  | gt, a, b => a > b
  | ge, a, b => a ≥ b
  | lt, a, b => a < b
  | le, a, b => a ≤ b
  | _, _, _ => false

/-- The integers that compare with `k` in another way than the next integer does. -/
def turns (k : ℤ) : DyadicOperator → List ℤ
  | eq | strictEq | ne | strictNe => [k - 1, k]
  | gt | le => [k]
  | ge | lt => [k - 1]
  | _ => []

theorem holds_add_one_iff (op : DyadicOperator) (a k : ℤ) :
    op.holds (a + 1) k = op.holds a k ↔ a ∉ op.turns k := by
  cases op with
  | or | and | add | sub | mul | div | mod => simp [holds, turns]
  | _ => grind [holds, turns]

/-- How a comparison is lowered and written: the test of the filter, whether it is denied in the
statement, and the sign. -/
inductive Writes : DyadicOperator → ComparisonOp → Bool → Sql.Relation → Prop
  | eq : Writes eq .eq false .eq
  | strictEq : Writes strictEq .eq false .eq
  | ne : Writes ne .ne true .eq
  | strictNe : Writes strictNe .ne true .eq
  | gt : Writes gt .gt false .gt
  | ge : Writes ge .gte false .ge
  | lt : Writes lt .lt false .lt
  | le : Writes le .lte false .le

theorem exists_writes {op : DyadicOperator} (h : op ∈ comparisons) :
    ∃ relation negated sign, op.Writes relation negated sign := by
  cases op with
  | eq => exact ⟨_, _, _, .eq⟩
  | strictEq => exact ⟨_, _, _, .strictEq⟩
  | ne => exact ⟨_, _, _, .ne⟩
  | strictNe => exact ⟨_, _, _, .strictNe⟩
  | gt => exact ⟨_, _, _, .gt⟩
  | ge => exact ⟨_, _, _, .ge⟩
  | lt => exact ⟨_, _, _, .lt⟩
  | le => exact ⟨_, _, _, .le⟩
  | or | and | add | sub | mul | div | mod => simp [comparisons] at h

namespace Writes

variable {op : DyadicOperator} {relation : ComparisonOp} {negated : Bool} {sign : Sql.Relation}

theorem holds (h : op.Writes relation negated sign) (a b : ℤ) :
    (sign.holds a b != negated) = op.holds a b := by
  cases h <;> simp [Sql.Relation.holds, DyadicOperator.holds]

/-- A comparison of a call with a literal is lowered to a test of the function. -/
theorem toFilter (h : op.Writes relation negated sign) {resolver : Resolver}
    {parameters : List String} {left right : Node} {function field : String} {es : List Expression}
    {xs : List Operand} {v : Value}
    (hl : lower resolver parameters left = .ok (.call function (.member field :: es)))
    (hr : lower resolver parameters right = .ok (.literal v))
    (hes : es.mapM Expression.operand = .ok xs) :
    Closure.toFilter resolver ⟨parameters, op.node left right⟩
      = .ok (.function field function xs [⟨relation, .value v⟩]) := by
  have hnode : op.node left right = .binary op.sign (some left) (some right) := by
    cases h <;> rfl
  obtain ⟨operator, hop, hclass, hrelation⟩ : ∃ operator, Operator.ofBinary? op.sign = some operator ∧
      operator.operatorClass = .comparison ∧ operator.comparison? = some relation := by
    cases h <;> exact ⟨_, rfl, rfl, rfl⟩
  have hbinary : binaryExpression (.call function (.member field :: es)) operator (.literal v)
      = .ok (.comparison (.call function (.member field :: es)) operator (.literal v)) := by
    rw [binaryExpression, hclass, if_neg (by decide), Expression.ofComparison, if_pos hclass]
  have hlower : lower resolver parameters (op.node left right)
      = .ok (.comparison (.call function (.member field :: es)) operator (.literal v)) := by
    rw [hnode, lower, hop]
    simp only [hl, hr]
    change orExpressionError (binaryExpression _ operator (.literal v)) = _
    rw [hbinary, orExpressionError]
  have hfilter : Expression.functionFilter function (.member field :: es) [⟨relation, .value v⟩]
      = .ok (.function field function xs [⟨relation, .value v⟩]) := by
    rw [Expression.functionFilter, hes]
    rfl
  have hcondition : (Expression.comparison (.call function (.member field :: es)) operator
      (.literal v)).toFilter = .ok (.function field function xs [⟨relation, .value v⟩]) := by
    rw [Expression.toFilter, hrelation]
    exact hfilter
  rw [Closure.toFilter, toExpression, hlower]
  change orExpressionError (Expression.toFilter _) = _
  rw [hcondition, orExpressionError]

end Writes

end DyadicOperator

/-! ## Integers -/

/-- The number that the digits write. -/
def Numeral.value (n : Numeral) : ℕ :=
  Text.digitsValue n.digits.toList

/-- An integer as a closure writes it. -/
inductive IntegerLiteral
  | plain (digits : Numeral)
  | negative (digits : Numeral)

namespace IntegerLiteral

def value : IntegerLiteral → ℤ
  | plain n => n.value
  | negative n => -n.value

def tree : IntegerLiteral → Tree
  | plain n => .numeral n
  | negative n => .monadic .minus (.numeral n)

end IntegerLiteral

section Lowering

variable (resolver : Resolver) (parameters : List String)

theorem lower_numeral (n : Numeral) : ∃ m : Int64, m.toInt = n.value ∧
    lower resolver parameters (Tree.numeral n).node = .ok (.literal (.integer m)) := by
  obtain ⟨m, hint, hm⟩ := n.exists_int64?
  refine ⟨m, hm, ?_⟩
  change literalExpression (.integer (Text.digitsValue n.digits.toList)) = _
  rw [literalExpression, Value.ofJson, hint]

theorem lower_integerLiteral (k : IntegerLiteral) : ∃ m : Int64, m.toInt = k.value ∧
    lower resolver parameters k.tree.node = .ok (.literal (.integer m)) := by
  cases k with
  | plain n => exact lower_numeral resolver parameters n
  | negative n =>
    obtain ⟨p, hp, hlower⟩ := lower_numeral resolver parameters n
    have hbounds : Int64.minValue.toInt = -Int64.maxValue.toInt - 1 := by decide
    have hpmax : p.toInt ≤ Int64.maxValue.toInt := Int64.toInt_le p
    have hmax : (0 : ℤ) ≤ Int64.maxValue.toInt := by decide
    obtain ⟨m, hint, hm⟩ := exists_int64?_eq (n := -p.toInt) (by omega) (by omega)
    refine ⟨m, by rw [hm, hp, IntegerLiteral.value], ?_⟩
    change negated (.integer n.value) = _
    have hliteral : literalExpression (.integer n.value) = pure (.literal (.integer p)) := hlower
    rw [negated, hliteral, pure_bind]
    simp only [hint]
    rfl

theorem lower_quoted (q : Quote) (text : String) :
    lower resolver parameters (Tree.quoted q text).node = .ok (.literal (.string text)) := rfl

end Lowering

/-! ## Methods -/

/-- A method of a field, called with some arguments. -/
def methodCallOf (x f method : Name) (arguments : List Tree) : Tree :=
  .call (.member (.member (.name x) f) method) arguments

theorem lower_methodCallOf {x f method : Name} {arguments : List Tree} {es : List Expression}
    {e : Expression} (hes : lowerAll .standard [x.text] (Tree.nodes arguments) = .ok es)
    (h : standardMethod method.text (.member f.text :: es) = .ok (some e)) :
    lower .standard [x.text] (methodCallOf x f method arguments).node = .ok e := by
  have hreceiver : lower .standard [x.text] (Tree.member (.name x) f).node = .ok (.member f.text) := by
    change memberField .standard [x.text] (.member false (.identifier x.text) (.identifier f.text)) = _
    have hpath : memberPath [x.text] (.identifier x.text) = .ok [] := by
      rw [memberPath, if_neg (by simp), if_pos List.mem_cons_self]
    rw [memberField, memberPath, hpath]
    rfl
  have hmethod : methodCall .standard method.text (.member f.text :: es) = .ok e := by
    change (standardMethod method.text (.member f.text :: es) >>= _) = _
    rw [h]
    rfl
  change lower .standard [x.text] (.call (.member false (Tree.member (.name x) f).node
    (.identifier method.text)) (Tree.nodes arguments)) = _
  rw [lower, hreceiver, hes]
  · exact hmethod
  · rintro _ ⟨⟩

/-! ## Statements -/

theorem isWordChar_of_isNameChar {c : Char} (h : Token.isNameChar c = true) :
    Sql.isWordChar c = true := by
  simp only [Sql.isWordChar, List.mem_cons, List.not_mem_nil, or_false, decide_eq_true_eq, not_or]
  refine ⟨?_, ?_, ?_, ?_, ?_, ?_, ?_, ?_, ?_⟩ <;> rintro rfl <;> cases h

/-- A name of a closure is the name of a column. -/
theorem Name.isNamed (n : Name) : (Sql.Atom.column n.text).IsNamed := by
  obtain ⟨c, cs, hn, hc, hcs⟩ := n.wellSpelled
  refine ⟨⟨by simp [hn], List.all_eq_true.mpr fun d hd => ?_⟩, ?_⟩
  · refine isWordChar_of_isNameChar ?_
    rw [hn, List.mem_cons] at hd
    rcases hd with rfl | hd
    · exact Token.isNameChar_of_startsName hc
    · exact hcs d hd
  · have hdigit : c.isDigit = false := by
      by_contra h
      rw [Token.startsName_of_isDigit (by simpa using h)] at hc
      cases hc
    have hminus : c ≠ '-' := by
      rintro rfl
      cases hc
    rw [hn, Sql.integer?, Sql.natural?, if_neg (by simp [hdigit])]
    · rfl
    · rintro _ ⟨⟩
      exact hminus rfl

theorem callText_ne_empty {c : Sql.Comparison} (h : c.IsNamed) : c.callText ≠ "" := by
  have hfunction := h.function.1
  simp only [Sql.Comparison.callText, ne_eq, ← String.toList_inj, String.toList_append]
  simp [hfunction]

/-- With the standard methods, the text of a closure is written in SQL, and that is read as the given
comparison. -/
def IsWrittenAs (text : String) (c : Sql.Comparison) : Prop :=
  ∃ closure filter sql, ofText text = .ok closure ∧ toFilter .standard closure = .ok filter ∧
    SqlWriter.standard.filter filter = .ok sql ∧ Sql.Comparison.ofText? sql = some c

namespace DyadicOperator.Writes

variable {op : DyadicOperator} {relation : ComparisonOp} {c : Sql.Comparison} {field function : String}
  {xs : List Operand} {v : Value}

/-- A test of a function is written as a comparison of its call. -/
theorem filter (h : op.Writes relation c.negated c.relation) (hnamed : c.IsNamed)
    (hcall : (SqlWriter.standard.arguments xs >>= fun args =>
      SqlWriter.standard.call function (.raw field :: args)) = .ok c.callText)
    (hnull : v ≠ .null) (hright : SqlWriter.standard.dialect.literal v = c.right.spelling) :
    SqlWriter.standard.filter (.function field function xs [⟨relation, .value v⟩])
      = .ok c.spelling := by
  have hoperand : SqlWriter.standard.operand (.value v) = .ok c.right.spelling := by
    rw [SqlWriter.operand, hright]
  have hpresent : Operand.isNull (.value v) = false := by
    cases v with
    | null => exact absurd rfl hnull
    | _ => rfl
  have htest : SqlWriter.standard.test c.callText ⟨relation, .value v⟩ = .ok c.spelling := by
    obtain ⟨negated, function, arguments, sign, right⟩ := c
    cases h
    all_goals
      rw [SqlWriter.test, hoperand]
      simp only [hpresent]
      rfl
  obtain ⟨args, hargs, hcall⟩ := exists_of_bind_eq_ok hcall
  rw [SqlWriter.filter, hargs]
  change (SqlWriter.standard.call function (.raw field :: args) >>= _) = _
  rw [hcall]
  change (if c.callText = "" then _ else SqlWriter.standard.test c.callText _) = _
  rw [if_neg (callText_ne_empty hnamed), htest]

/-- A closure that compares what a method of a field gives, from its text to the comparison in SQL. -/
theorem isWrittenAs (h : op.Writes relation c.negated c.relation) (hnamed : c.IsNamed) {x f : Name}
    {text : String} {left right : Tree} {es : List Expression}
    (hspaced : Token.Spaced (arrowTokens x (.dyadic op left right)) text.toList)
    (hleft : lower .standard [x.text] left.node = .ok (.call function (.member f.text :: es)))
    (hright : lower .standard [x.text] right.node = .ok (.literal v))
    (hes : es.mapM Expression.operand = .ok xs)
    (hcall : (SqlWriter.standard.arguments xs >>= fun args =>
      SqlWriter.standard.call function (.raw f.text :: args)) = .ok c.callText)
    (hnull : v ≠ .null) (hliteral : SqlWriter.standard.dialect.literal v = c.right.spelling) :
    IsWrittenAs text c :=
  ⟨_, _, _, ofText_of_spaced_arrow x _ hspaced, h.toFilter hleft hright hes,
    h.filter hnamed hcall hnull hliteral, Sql.Comparison.ofText?_spelling hnamed⟩

end DyadicOperator.Writes

/-! ## Where a text stands in another -/

/-- Where the needle stands first, and minus one if it is not there. Positions count characters,
as a database counts them, and not units of 16 bits. -/
def indexOf (needle text : String) : ℤ :=
  match Text.position? needle.toList text.toList with
  | some i => i
  | none => -1

theorem locate_eq_indexOf (needle text : String) :
    Sql.locate needle.toList text.toList = indexOf needle text + 1 := by
  rw [Sql.locate, indexOf]
  cases Text.position? needle.toList text.toList <;> rfl

def indexOfName : Name where
  text := "indexOf"
  wellSpelled := ⟨'i', "ndexOf".toList, rfl, by decide, List.all_eq_true.mp (by decide)⟩
  notKeyword := by decide

/-- A comparison of where a text stands in a field. -/
def indexTest (x f : Name) (q : Quote) (needle : String) (op : DyadicOperator) (k : IntegerLiteral) :
    Tree :=
  .dyadic op (methodCallOf x f indexOfName [.quoted q needle]) k.tree

/-- The comparison in SQL. The number is that of the closure. -/
def locateTest (f : Name) (needle : String) (negated : Bool) (sign : Sql.Relation) (k : ℤ) :
    Sql.Comparison :=
  ⟨negated, "LOCATE", [.text needle, .column f.text], sign, .integer k⟩

section

variable {x f : Name} {q : Quote} {needle : String} {op : DyadicOperator} {k : IntegerLiteral}
  {relation : ComparisonOp} {negated : Bool} {sign : Sql.Relation} {text : String}

theorem isNamed_locateTest {k : ℤ} : (locateTest f needle negated sign k).IsNamed where
  function := show Sql.IsWord "LOCATE" from ⟨by decide, by decide⟩
  notNegation := show "LOCATE" ≠ "NOT" by decide
  arguments := by
    simp only [locateTest, List.mem_cons, List.not_mem_nil, or_false]
    rintro _ (rfl | rfl)
    · trivial
    · exact f.isNamed
  right := trivial

theorem isWrittenAs_locateTest (h : op.Writes relation negated sign)
    (hspaced : Token.Spaced (arrowTokens x (indexTest x f q needle op k)) text.toList) :
    IsWrittenAs text (locateTest f needle negated sign k.value) := by
  obtain ⟨m, hm, hright⟩ := lower_integerLiteral .standard [x.text] k
  have hleft : lower .standard [x.text] (methodCallOf x f indexOfName [.quoted q needle]).node
      = .ok (.call "indexof" [.member f.text, .literal (.string needle)]) :=
    lower_methodCallOf rfl rfl
  have hcall : (SqlWriter.standard.arguments [.value (.string needle)] >>= fun args =>
      SqlWriter.standard.call "indexof" (.raw f.text :: args))
      = .ok (locateTest f needle negated sign k.value).callText := by
    have htext : (locateTest f needle negated sign k.value).callText
        = "LOCATE(" ++ Dialect.quoteEscaped needle ++ "," ++ f.text ++ ")" := by
      rw [← String.toList_inj]
      simp [locateTest, Sql.Comparison.callText, Text.joined, Sql.Atom.spelling]
    rw [htext]
    rfl
  have hliteral : SqlWriter.standard.dialect.literal (.integer m) = toString k.value := by
    rw [← hm]
    rfl
  exact DyadicOperator.Writes.isWrittenAs (c := locateTest f needle negated sign k.value) h
    isNamed_locateTest hspaced hleft hright rfl hcall (by simp) hliteral

theorem holds?_locateTest (h : op.Writes relation negated sign) (k : ℤ) (row : String → String) :
    (locateTest f needle negated sign k).holds? row
      = some (op.holds (indexOf needle (row f.text) + 1) k) := by
  have hrelation := sign.holds?_integer (Sql.locate needle.toList (row f.text).toList) k
  rw [← h.holds, ← locate_eq_indexOf]
  change (sign.holds? (.integer (Sql.locate needle.toList (row f.text).toList)) (.integer k) >>=
    fun result => some (result != negated)) = _
  rw [hrelation]
  rfl

/-- The closure's number is compared with the position that is counted from one. A row is selected
wrongly if that makes a difference, which it does at one or two positions. -/
theorem holds?_indexOf (hop : op ∈ DyadicOperator.comparisons)
    (hspaced : Token.Spaced (arrowTokens x (indexTest x f q needle op k)) text.toList) :
    ∃ c, IsWrittenAs text c ∧ ∀ row,
      c.holds? row = some (op.holds (indexOf needle (row f.text) + 1) k.value) ∧
      (c.holds? row = some (op.holds (indexOf needle (row f.text)) k.value) ↔
        indexOf needle (row f.text) ∉ op.turns k.value) := by
  obtain ⟨relation, negated, sign, h⟩ := DyadicOperator.exists_writes hop
  refine ⟨_, isWrittenAs_locateTest h hspaced, fun row => ?_⟩
  have hholds : (locateTest f needle negated sign k.value).holds? row = _ :=
    holds?_locateTest h k.value row
  refine ⟨hholds, ?_⟩
  rw [hholds, Option.some_inj, DyadicOperator.holds_add_one_iff]

end

/-- The parameter of the closures below. -/
def parameter : Name := ⟨"x", ⟨'x', [], rfl, by decide, by simp⟩, by decide⟩

/-- The field of the closures below. -/
def title : Name :=
  ⟨"title", ⟨'t', "itle".toList, rfl, by decide, List.all_eq_true.mp (by decide)⟩, by decide⟩

def zero : Numeral := ⟨"0", ⟨by decide, List.all_eq_true.mp (by decide)⟩, by decide⟩

/-- Whether there is an `a` in a title. -/
def hasLetterText : String :=
  "x => x.title.indexOf('a') >= 0"

theorem spaced_hasLetterText : Token.Spaced
    (arrowTokens parameter (indexTest parameter title .single "a" .ge (.plain zero)))
    hasLetterText.toList := by
  have hnone : Token.IsGap [] := ⟨.nil, by simp⟩
  have hblank : Token.IsGap [' '] := ⟨.blank rfl .nil, by simp [Token.isBlank]⟩
  exact .cons hnone <| .cons hblank <| .cons hblank <| .cons hnone <| .cons hnone <| .cons hnone <|
    .cons hnone <| .cons hnone <| .cons hnone <| .cons hnone <| .cons hblank <| .cons hblank <|
    .nil hnone

theorem holds?_hasLetter :
    DyadicOperator.ge ∈ DyadicOperator.comparisons ∧ Token.Spaced
      (arrowTokens parameter (indexTest parameter title .single "a" .ge (.plain zero)))
      hasLetterText.toList ∧
    ∃ c, IsWrittenAs hasLetterText c ∧ ∀ row,
      c.holds? row = some (DyadicOperator.ge.holds (indexOf "a" (row title.text) + 1) zero.value) ∧
      (c.holds? row = some (DyadicOperator.ge.holds (indexOf "a" (row title.text)) zero.value) ↔
        indexOf "a" (row title.text) ∉ DyadicOperator.ge.turns zero.value) :=
  ⟨by decide, spaced_hasLetterText, holds?_indexOf (by decide) spaced_hasLetterText⟩

/-- A title without the letter is selected. -/
theorem holds?_hasLetter_of_missing :
    ∃ c, IsWrittenAs hasLetterText c ∧ c.holds? (fun _ => "one") = some true ∧
      DyadicOperator.ge.holds (indexOf "a" "one") 0 = false := by
  refine ⟨_, isWrittenAs_locateTest .ge spaced_hasLetterText, ?_, by decide⟩
  rw [holds?_locateTest .ge]
  decide

/-! ## Parts of a text -/

/-- The characters from a position up to another one, as far as there are any. Positions count
characters, as a database counts them, and not units of 16 bits. -/
def charsBetween (start stop : ℕ) (text : List Char) : List Char :=
  (text.drop start).take (stop - start)

def substringName : Name where
  text := "substring"
  wellSpelled := ⟨'s', "ubstring".toList, rfl, by decide, List.all_eq_true.mp (by decide)⟩
  notKeyword := by decide

/-- A comparison of a part of a field's text. -/
def partTest (x f : Name) (start stop : Numeral) (op : DyadicOperator) (q : Quote) (k : String) :
    Tree :=
  .dyadic op (methodCallOf x f substringName [.numeral start, .numeral stop]) (.quoted q k)

/-- The comparison in SQL. A length of zero is left out. -/
def substringTest (f : Name) (start length : ℕ) (k : String) : Sql.Comparison :=
  ⟨false, "SUBSTRING", [.column f.text, .integer (start + 1)] ++
    if length = 0 then [] else [.integer length], .eq, .text k⟩

section

variable {x f : Name} {start stop : Numeral} {op : DyadicOperator} {q : Quote} {k text : String}
  {relation : ComparisonOp}

theorem isNamed_substringTest {start length : ℕ} : (substringTest f start length k).IsNamed where
  function := show Sql.IsWord "SUBSTRING" from ⟨by decide, by decide⟩
  notNegation := show "SUBSTRING" ≠ "NOT" by decide
  arguments := by
    have hlength : ∀ a ∈ if length = 0 then [] else [Sql.Atom.integer length], a.IsNamed := by
      split_ifs <;> simp [Sql.Atom.IsNamed]
    rintro a ha
    rcases List.mem_append.mp ha with ha | ha
    · simp only [List.mem_cons, List.not_mem_nil, or_false] at ha
      rcases ha with rfl | rfl
      · exact f.isNamed
      · trivial
    · exact hlength a ha
  right := trivial

theorem lengthBetween_of_le {s e : Int64} (hs : 0 ≤ s.toInt) (hle : s.toInt ≤ e.toInt) :
    ∃ d : Int64, d.toInt = e.toInt - s.toInt ∧
      lengthBetween (.literal (.integer s)) (.literal (.integer e)) = .ok (.literal (.integer d)) := by
  have hmin : Int64.minValue.toInt ≤ 0 := by decide
  have hmax : e.toInt ≤ Int64.maxValue.toInt := Int64.toInt_le e
  obtain ⟨d, hint, hd⟩ := exists_int64?_eq (n := e.toInt - s.toInt) (by omega) (by omega)
  have hneg : ¬ d < 0 := by
    rw [Int64.lt_iff_toInt_lt, hd, Int64.toInt_zero]
    omega
  refine ⟨d, hd, ?_⟩
  simp only [lengthBetween, hint]
  rw [if_neg hneg]

/-- The function counts the start from one, and says the length unless that is zero. -/
theorem substringCall_integers (name : String) {args : List Argument} {arg : Argument} {s p d : Int64}
    (hs : (Argument.present? args 1).bind Argument.integer = some s)
    (hp : int64? (s.toInt + 1) = some p) (harg : Argument.present? args 2 = some arg)
    (hd : arg.integer = some d) :
    Renderer.substringCall name args
      = .ok ("SUBSTRING(" ++ Argument.sqlAt args 0 ++ "," ++ toString p.toInt ++
        (if d = 0 then "" else "," ++ toString d.toInt) ++ ")") := by
  unfold Renderer.substringCall
  rw [hs]
  simp only [pure_bind, hp, harg, hd]
  split_ifs <;> simp only [String.append_assoc, String.append_empty] <;> rfl

theorem call_substring {s d : Int64} {start length : ℕ} (hs : s.toInt = start) (hd : d.toInt = length)
    (hlt : s.toInt < Int64.maxValue.toInt) :
    (SqlWriter.standard.arguments [.value (.integer s), .value (.integer d)] >>= fun args =>
      SqlWriter.standard.call "substring" (.raw f.text :: args))
      = .ok (substringTest f start length k).callText := by
  have hmin : Int64.minValue.toInt ≤ 0 := by decide
  obtain ⟨p, hint, hp⟩ := exists_int64?_eq (n := s.toInt + 1) (by omega) (by omega)
  have hzero : d = 0 ↔ length = 0 := by
    rw [← Int64.toInt_inj, hd, Int64.toInt_zero, Nat.cast_eq_zero]
  change Except.mapError SqlError.function (Renderer.substringCall "substring" [.raw f.text,
    SqlWriter.standard.literalArgument (.integer s),
    SqlWriter.standard.literalArgument (.integer d)]) = _
  rw [substringCall_integers "substring" rfl hint rfl rfl, hp, hs, hd]
  refine congrArg Except.ok (String.toList_inj.mp ?_)
  by_cases hlength : length = 0
  · rw [if_pos (hzero.mpr hlength)]
    simp [substringTest, Sql.Comparison.callText, hlength, Text.joined, Sql.Atom.spelling,
      Argument.sqlAt, Argument.raw]
  · rw [if_neg (mt hzero.mp hlength)]
    simp [substringTest, Sql.Comparison.callText, hlength, Text.joined, Sql.Atom.spelling,
      Argument.sqlAt, Argument.raw]

theorem isWrittenAs_substringTest (h : op.Writes relation false .eq) (hle : start.value ≤ stop.value)
    (hlt : (stop.value : ℤ) < Int64.maxValue.toInt)
    (hspaced : Token.Spaced (arrowTokens x (partTest x f start stop op q k)) text.toList) :
    IsWrittenAs text (substringTest f start.value (stop.value - start.value) k) := by
  obtain ⟨s, hs, hstart⟩ := lower_numeral .standard [x.text] start
  obtain ⟨e, he, hstop⟩ := lower_numeral .standard [x.text] stop
  obtain ⟨d, hd, hlength⟩ := lengthBetween_of_le (s := s) (e := e) (by omega) (by omega)
  have harguments : lowerAll .standard [x.text] (Tree.nodes [.numeral start, .numeral stop])
      = .ok [.literal (.integer s), .literal (.integer e)] := by
    rw [Tree.nodes, lowerAll, hstart, Tree.nodes, lowerAll, hstop]
    rfl
  have hmethod : standardMethod "substring"
      [.member f.text, .literal (.integer s), .literal (.integer e)] = .ok (some
        (.call "substring" [.member f.text, .literal (.integer s), .literal (.integer d)])) := by
    change ((lengthBetween (.literal (.integer s)) (.literal (.integer e)) >>= fun length =>
      .ok [.member f.text, .literal (.integer s), length]) >>= fun es =>
        .ok (some (.call "substring" es)) : Except ClosureError (Option Expression)) = _
    rw [hlength]
    rfl
  have hleft : lower .standard [x.text]
      (methodCallOf x f substringName [.numeral start, .numeral stop]).node = _ :=
    lower_methodCallOf harguments hmethod
  exact DyadicOperator.Writes.isWrittenAs
    (c := substringTest f start.value (stop.value - start.value) k) h isNamed_substringTest hspaced
    hleft (lower_quoted .standard [x.text] q k) rfl
    (call_substring hs (by omega) (by omega)) (by simp) rfl

theorem called?_substringTest (f : Name) (start length : ℕ) (k : String) (row : String → String) :
    (substringTest f start length k).called? row = some (.text
      (if length = 0 then (row f.text).toList.drop start
      else ((row f.text).toList.drop start).take length)) := by
  have hfrom : Sql.fromPosition (row f.text).toList (start + 1) = (row f.text).toList.drop start := by
    rw [Sql.fromPosition, if_pos (by omega)]
    simp
  by_cases hlength : length = 0
  · subst hlength
    rw [if_pos rfl, ← hfrom]
    rfl
  · rw [if_neg hlength, ← hfrom]
    simp [substringTest, hlength, Sql.Comparison.called?, Sql.Atom.value, Sql.call?]

theorem holds?_substringTest {start length : ℕ} {row : String → String} {part : List Char}
    (h : (substringTest f start length k).called? row = some (.text part)) :
    (substringTest f start length k).holds? row = some (decide (part = k.toList)) := by
  rw [Sql.Comparison.holds?, h]
  simp [substringTest, Sql.Relation.holds?, Sql.Atom.value]

/-- The database takes the characters between the two positions, but all the characters behind the
first position where the two are the same. That is another text unless nothing is there. -/
theorem called?_substring (hop : op = .eq ∨ op = .strictEq) (hle : start.value ≤ stop.value)
    (hlt : (stop.value : ℤ) < Int64.maxValue.toInt)
    (hspaced : Token.Spaced (arrowTokens x (partTest x f start stop op q k)) text.toList) :
    ∃ c, IsWrittenAs text c ∧ c.function = "SUBSTRING" ∧ ∀ row, ∃ part,
      c.called? row = some (.text part) ∧ c.holds? row = some (decide (part = k.toList)) ∧
      (start.value = stop.value → part = (row f.text).toList.drop start.value) ∧
      (part = charsBetween start.value stop.value (row f.text).toList ↔
        start.value < stop.value ∨ (row f.text).toList.length ≤ start.value) := by
  have h : ∃ relation, op.Writes relation false .eq := by
    rcases hop with rfl | rfl
    · exact ⟨_, .eq⟩
    · exact ⟨_, .strictEq⟩
  obtain ⟨relation, h⟩ := h
  refine ⟨_, isWrittenAs_substringTest h hle hlt hspaced, rfl, fun row => ?_⟩
  have hcalled := called?_substringTest f start.value (stop.value - start.value) k row
  refine ⟨_, hcalled, holds?_substringTest hcalled, ?_, ?_⟩
  · intro heq
    rw [if_pos (by omega)]
  · rcases Nat.lt_or_eq_of_le hle with hlt | heq
    · rw [if_neg (by omega), charsBetween]
      simp [hlt]
    · rw [if_pos (by omega), charsBetween, heq]
      simp [List.drop_eq_nil_iff]

end

/-- Whether no letters of a title are one. -/
def noLettersText : String :=
  "x => x.title.substring(0, 0) == 'k'"

theorem spaced_noLettersText : Token.Spaced
    (arrowTokens parameter (partTest parameter title zero zero .eq .single "k"))
    noLettersText.toList := by
  have hnone : Token.IsGap [] := ⟨.nil, by simp⟩
  have hblank : Token.IsGap [' '] := ⟨.blank rfl .nil, by simp [Token.isBlank]⟩
  exact .cons hnone <| .cons hblank <| .cons hblank <| .cons hnone <| .cons hnone <| .cons hnone <|
    .cons hnone <| .cons hnone <| .cons hnone <| .cons hnone <| .cons hblank <| .cons hnone <|
    .cons hblank <| .cons hblank <| .nil hnone

theorem called?_noLetters :
    (zero.value ≤ zero.value ∧ (zero.value : ℤ) < Int64.maxValue.toInt ∧ Token.Spaced
      (arrowTokens parameter (partTest parameter title zero zero .eq .single "k"))
      noLettersText.toList) ∧
    ∃ c, IsWrittenAs noLettersText c ∧ c.function = "SUBSTRING" ∧ ∀ row, ∃ part,
      c.called? row = some (.text part) ∧ c.holds? row = some (decide (part = "k".toList)) ∧
      (zero.value = zero.value → part = (row title.text).toList.drop zero.value) ∧
      (part = charsBetween zero.value zero.value (row title.text).toList ↔
        zero.value < zero.value ∨ (row title.text).toList.length ≤ zero.value) :=
  ⟨⟨le_rfl, by decide, spaced_noLettersText⟩,
    called?_substring (.inl rfl) le_rfl (by decide) spaced_noLettersText⟩

/-- A whole title is taken where there is nothing to take. -/
theorem called?_noLetters_of_longer :
    ∃ c, IsWrittenAs noLettersText c ∧ c.called? (fun _ => "k") = some (.text ['k']) ∧
      c.holds? (fun _ => "k") = some true ∧ charsBetween 0 0 "k".toList = [] := by
  have hcalled : (substringTest title zero.value (zero.value - zero.value) "k").called? (fun _ => "k")
      = some (.text ['k']) := by
    rw [called?_substringTest]
    decide
  refine ⟨_, isWrittenAs_substringTest .eq le_rfl (by decide) spaced_noLettersText, hcalled, ?_,
    by decide⟩
  rw [holds?_substringTest hcalled]
  decide

end QueryCompiler.Closure
