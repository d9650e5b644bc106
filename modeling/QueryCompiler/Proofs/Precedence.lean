import QueryCompiler.Proofs.Trees

/-!
# The grammar reads written trees

The readers of the grammar are levels, of which each reads operands by the one below it and what
continues an operand at its own level. A tree is read at every level at which it is written
(`Tree.isRead`): the induction is on the tree, and from one level to the next the tokens only change
where parentheses become needless. So a text that spells the tokens of a tree is parsed into that
tree (`Closure.ofText_of_spaced`).
-/

namespace QueryCompiler.Closure

open Grammar

/-! ## Levels -/

/-- The operators of a rank. -/
def operators : ℕ → List String
  | 0 => ["*", "/", "%"]
  | 1 => ["+", "-"]
  | 2 => [">=", "<=", ">", "<"]
  | 3 => ["===", "!==", "==", "!="]
  | 4 => ["&&"]
  | _ => ["||"]

/-- What the operators of a rank build. -/
def build : ℕ → String → Option Node → Option Node → Node
  | 0 | 1 | 2 | 3 => .binary
  | _ => .logical

/-- The readers of an expression from the tightest one to the loosest. -/
def level (depth : ℕ) : ℕ → Reader Token Node
  | 0 => operand (expression depth)
  | 1 => signedOperand (expression depth)
  | n + 2 => rank (build n) (operators n) (level depth (n + 1))

theorem expression_succ (depth : ℕ) : expression (depth + 1) = level depth 7 := rfl

/-- The token goes on with an operand at that level. -/
def continuesAt : ℕ → Token → Bool
  | 0, x => x = .mark "." ∨ x = .mark "("
  | 1, _ => false
  | n + 2, x => (markIn (operators n) x).isSome

/-- What follows does not go on with an operand at a level below. -/
def Stops (n : ℕ) (rest : List Token) : Prop :=
  ∀ x ∈ rest.head?, ∀ i < n, continuesAt i x = false

/-- What a level makes of an operand and of what stands behind it. -/
def Continues (depth : ℕ) : ℕ → Node → List Token → Node → List Token → Prop
  | 0, left, xs, a, ys => ∃ suffixes, ReadsMany (suffix (expression depth)) xs suffixes ys ∧
      suffixes.foldl (fun node suffix => suffix node) left = a
  | 1, left, xs, a, ys => a = left ∧ ys = xs
  | n + 2, left, xs, a, ys => ReadsChain (level depth (n + 1)) (markIn (operators n))
      (fun left operator right => build n operator (some left) (some right)) left xs a ys

variable {depth n : ℕ} {rest xs ys : List Token} {a left : Node}

theorem Stops.mono {m : ℕ} (h : Stops n rest) (hle : m ≤ n) : Stops m rest :=
  fun x hx i hi => h x hx i (hi.trans_le hle)

theorem suffix_eq_none {expression : Reader Token Node}
    (h : ∀ x ∈ xs.head?, continuesAt 0 x = false) : suffix expression xs = none := by
  have hmarks : Token.mark "." ∉ xs.head? ∧ Token.mark "(" ∉ xs.head? := by
    constructor <;> intro hx <;> simpa [continuesAt] using h _ hx
  exact orElse_eq_none (andThen_eq_none_of_eq_none (exactly_eq_none hmarks.1))
    (andThen_eq_none_of_eq_none (exactly_eq_none hmarks.2))

theorem continues_stop (h : ∀ x ∈ rest.head?, continuesAt n x = false) :
    Continues depth n left rest left rest := by
  match n with
  | 0 => exact ⟨[], .stop (suffix_eq_none h), rfl⟩
  | 1 => exact ⟨rfl, rfl⟩
  | n + 2 =>
    refine .stop fun x hx => ?_
    simpa [continuesAt] using h x hx

theorem markIn_sign (op : DyadicOperator) : markIn (operators op.rank) (.mark op.sign) = some op.sign := by
  cases op <;> rfl

theorem build_sign (op : DyadicOperator) (left right : Node) :
    build op.rank op.sign (some left) (some right) = op.node left right := by
  cases op <;> rfl

theorem continuesAt_sign (op : DyadicOperator) : ∀ i < op.rank + 2,
    continuesAt i (.mark op.sign) = false := by
  cases op <;> decide

theorem continues_dyadic {op : DyadicOperator} {right : Node}
    (hright : Reads (level depth (op.rank + 1)) xs right ys)
    (h : Continues depth (op.rank + 2) (op.node left right) ys a rest) :
    Continues depth (op.rank + 2) left (.mark op.sign :: xs) a rest := by
  rw [← build_sign op left right] at h
  exact ReadsChain.step (markIn_sign op) hright h

theorem continues_member {name : Name}
    (h : Continues depth 0 (.member false left (.identifier name.text)) xs a ys) :
    Continues depth 0 left (.mark "." :: .word name.text :: xs) a ys := by
  obtain ⟨suffixes, hread, rfl⟩ := h
  have hname : name? (.word name.text) = some name.text := if_neg name.notKeyword
  refine ⟨(fun object => .member false object (.identifier name.text)) :: suffixes, ?_, rfl⟩
  exact .step (.orElse_left (.andThen (.exactly _) (.map _ (.item hname)))) hread

theorem continues_call {arguments : List Node} {zs : List Token}
    (harguments : Reads ((expression depth).enclosed (.mark ",") (.mark ")")) xs arguments ys)
    (h : Continues depth 0 (.call left arguments) ys a zs) :
    Continues depth 0 left (.mark "(" :: xs) a zs := by
  obtain ⟨suffixes, hread, rfl⟩ := h
  refine ⟨(fun callee => .call callee arguments) :: suffixes, ?_, rfl⟩
  refine .step (.orElse_right ?_ (.andThen (.exactly _) (.map _ harguments))) hread
  exact andThen_eq_none_of_eq_none (exactly_eq_none (by simp))

/-- An operand and what continues it. -/
theorem reads_operand {first : Node}
    (hfirst : Reads ((Reader.item atom?).orElse (between "(" ")" (expression depth))) xs first ys)
    (h : Continues depth 0 first ys a rest) : Reads (level depth 0) xs a rest := by
  obtain ⟨suffixes, hread, rfl⟩ := h
  obtain ⟨hlt, hfirst⟩ := hfirst
  obtain ⟨hle, hread⟩ := hread.many
  refine ⟨hle.trans_lt hlt, ?_⟩
  simp only [level, operand, hfirst, Option.map_some, hread]
  rfl

theorem reads_atom {x : Token} {first : Node} (hx : atom? x = some first)
    (h : Continues depth 0 first xs a rest) : Reads (level depth 0) (x :: xs) a rest :=
  reads_operand (.orElse_left (.item hx)) h

theorem reads_between {first : Node} (hfirst : Reads (expression depth) xs first (.mark ")" :: ys))
    (h : Continues depth 0 first ys a rest) : Reads (level depth 0) (.mark "(" :: xs) a rest := by
  refine reads_operand (.orElse_right ?_ ?_) h
  · exact item_eq_none (by simp [atom?, literal?, name?])
  · exact .andThen (.exactly _) (.andThen hfirst (.map _ (.exactly _)))

theorem reads_signedOperand {operators : List String} {zs : List Token}
    (hmany : ReadsMany (Reader.item (markIn ["!", "-"])) xs operators zs)
    (h : Reads (level depth 0) zs a rest) : Reads (level depth 1) xs
      (operators.foldr (fun operator node => .unary operator node true) a) rest := by
  obtain ⟨hle, hmany⟩ := hmany.many
  obtain ⟨hlt, h⟩ := h
  refine ⟨hlt.trans_le hle, ?_⟩
  change signedOperand (expression depth) xs = _
  change operand (expression depth) zs = _ at h
  unfold signedOperand
  rw [hmany]
  dsimp only
  rw [h]
  rfl

theorem exists_of_reads_signedOperand (h : Reads (level depth 1) xs a rest) :
    ∃ operators zs node, ReadsMany (Reader.item (markIn ["!", "-"])) xs operators zs ∧
      Reads (level depth 0) zs node rest ∧
        a = operators.foldr (fun operator node => .unary operator node true) node := by
  obtain ⟨hlt, h⟩ := h
  obtain ⟨⟨node, last⟩, hread, h⟩ := Option.map_eq_some_iff.mp h
  cases h
  exact ⟨_, _, node, readsMany_many _ xs, ⟨last.2, hread⟩, rfl⟩

/-- A signed operand without a sign. -/
theorem reads_unsigned (hxs : ∀ x ∈ xs.head?, markIn ["!", "-"] x = none)
    (h : Reads (level depth 0) xs a rest) : Reads (level depth 1) xs a rest :=
  reads_signedOperand (.stop (item_eq_none hxs)) h

theorem reads_signed (op : MonadicOperator) (h : Reads (level depth 1) xs a rest) :
    Reads (level depth 1) (.mark op.sign :: xs) (.unary op.sign a true) rest := by
  obtain ⟨operators, zs, node, hmany, hnode, rfl⟩ := exists_of_reads_signedOperand h
  have hsign : markIn ["!", "-"] (.mark op.sign) = some op.sign := if_pos op.sign_mem
  exact reads_signedOperand (.step (.item hsign) hmany) hnode

theorem reads_level {first : Node} (hfirst : Reads (level depth (n + 1)) xs first ys)
    (h : Continues depth (n + 2) first ys a rest) : Reads (level depth (n + 2)) xs a rest :=
  hfirst.chain h

/-! ## Trees -/

namespace Tree

/-- The tree is read at the level of the place where it is written. -/
def IsRead (t : Tree) (n : ℕ) : Prop :=
  ∀ ⦃depth : ℕ⦄ ⦃rest ys : List Token⦄ ⦃a : Node⦄, (t.tokens n).length ≤ depth + 1 → Stops n rest →
    Continues depth n t.node rest a ys → Reads (level depth n) (t.tokens n ++ rest) a ys

theorem IsRead.ends {t : Tree} (h : t.IsRead n) (hdepth : (t.tokens n).length ≤ depth + 1)
    (hrest : Stops (n + 1) rest) : Reads (level depth n) (t.tokens n ++ rest) t.node rest :=
  h hdepth (hrest.mono n.le_succ) (continues_stop fun x hx => hrest x hx n n.lt_succ_self)

/-- A tree as a whole expression. -/
theorem IsRead.expression {t : Tree} (h : t.IsRead 7) (hdepth : (t.tokens 7).length ≤ depth)
    (hrest : Stops 8 rest) : Reads (expression depth) (t.tokens 7 ++ rest) t.node rest := by
  have hpos : 0 < (t.tokens 7).length := List.length_pos_iff.mpr (isPhrase_tokens 7 t).ne_nil
  obtain ⟨depth, rfl⟩ : ∃ d, depth = d + 1 := ⟨depth - 1, by omega⟩
  rw [expression_succ]
  exact h.ends hdepth hrest

/-- Behind a closing parenthesis or a comma no operand goes on. -/
theorem stops_mark {m : String} (hm : m = ")" ∨ m = ",") : Stops 8 (.mark m :: rest) := by
  rintro x ⟨⟩
  rcases hm with rfl | rfl <;> decide

/-- A tree in the tightest place has no sign in front. -/
theorem markIn_tokens : ∀ t : Tree, ∀ x ∈ (t.tokens 0).head?, markIn ["!", "-"] x = none
  | monadic op x => by
    rw [tokens_of_lt (by simp [looseness])]
    rintro x ⟨⟩
    rfl
  | dyadic op x y => by
    rw [tokens_of_lt (by simp [looseness])]
    rintro x ⟨⟩
    rfl
  | name _ | numeral _ | constant _ | quoted _ _ => by
    rintro x ⟨⟩
    rfl
  | member object property => by
    have htokens : (member object property).tokens 0
        = object.tokens 0 ++ [.mark ".", .word property.text] := rfl
    rw [htokens, List.head?_append_of_ne_nil _ (isPhrase_tokens 0 object).ne_nil]
    exact markIn_tokens object
  | call callee arguments => by
    have htokens : (call callee arguments).tokens 0
        = callee.tokens 0 ++ .mark "(" :: (listed arguments ++ [.mark ")"]) := rfl
    rw [htokens, List.head?_append_of_ne_nil _ (isPhrase_tokens 0 callee).ne_nil]
    exact markIn_tokens callee

/-- Where a tree is not an operator of the next level itself, it is written and read there as it is
at this level. -/
theorem isRead_succ {t : Tree} (h : t.IsRead n) (hne : t.looseness ≠ n + 1) : t.IsRead (n + 1) := by
  intro depth rest ys a hdepth hrest hcontinues
  have htokens : t.tokens (n + 1) = t.tokens n := by
    rcases Nat.lt_or_ge n t.looseness with hlt | hle
    · rw [tokens_of_lt hlt, tokens_of_lt (by omega)]
    · rw [tokens_of_le hle, tokens_of_le (by omega)]
  rw [htokens] at hdepth ⊢
  have hread := h.ends hdepth hrest
  match n with
  | 0 =>
    obtain ⟨rfl, rfl⟩ := hcontinues
    refine reads_unsigned ?_ hread
    rw [List.head?_append_of_ne_nil _ (isPhrase_tokens 0 t).ne_nil]
    exact markIn_tokens t
  | n + 1 => exact reads_level hread hcontinues

/-- A tree that is read as an expression is read in parentheses as an operand. -/
theorem isRead_zero {t : Tree} (h : t.IsRead 7) (hloose : 0 < t.looseness) : t.IsRead 0 := by
  intro depth rest ys a hdepth _ hcontinues
  have htokens : t.tokens 0 = .mark "(" :: (t.tokens 7 ++ [.mark ")"]) := by
    rw [tokens_of_lt hloose, tokens_of_le t.looseness_le]
  rw [htokens] at hdepth ⊢
  simp only [List.length_cons, List.length_append, List.length_nil] at hdepth
  rw [List.cons_append, List.append_assoc]
  exact reads_between (h.expression (by omega) (stops_mark (.inl rfl))) hcontinues

/-- A tree that is read where it needs no parentheses just so is read everywhere. -/
theorem isRead_of_looseness {t : Tree} (h : t.IsRead t.looseness) : ∀ n ≤ 7, t.IsRead n := by
  have hup : ∀ n, t.looseness ≤ n → t.IsRead n := by
    intro n hn
    induction n, hn using Nat.le_induction with
    | base => exact h
    | succ n hn ih => exact isRead_succ ih (by omega)
  intro n _
  -- Below its looseness the tree stands in parentheses, which begin again at the bottom.
  rcases Nat.eq_zero_or_pos t.looseness with hzero | hpos
  · exact hup n (by omega)
  · induction n with
    | zero => exact isRead_zero (hup 7 t.looseness_le) hpos
    | succ n ih =>
      by_cases heq : t.looseness = n + 1
      · rw [← heq]
        exact h
      · exact isRead_succ (ih (by omega)) heq

theorem atom?_word (n : Name) : atom? (.word n.text) = some (.identifier n.text) := by
  have hliteral : literal? (.word n.text) = none := by
    have hkeyword := n.notKeyword
    unfold literal?
    split <;> simp_all [keywords]
  rw [atom?, hliteral, name?, if_neg n.notKeyword]
  rfl

theorem atom?_constant (c : Constant) : atom? (.word c.text) = some (.literal c.value c.text) := by
  cases c <;> rfl

theorem unescape_escaped (quote : Quote) : ∀ cs : List Char,
    unescape (Token.escaped quote.char cs) = cs
  | [] => rfl
  | c :: cs => by
    have ih := unescape_escaped quote cs
    rw [Token.escaped]
    split_ifs with hc
    · have hself : unescaped c = c := by
        rcases hc with rfl | rfl
        · cases quote <;> rfl
        · rfl
      rw [unescape, hself, ih]
    · rw [unescape, ih]
      · rintro _ _ rfl
        exact absurd (.inr rfl) hc
      · rintro rfl
        exact absurd (.inr rfl) hc

theorem atom?_quoted (q : Quote) (text : String) : atom? (.quoted q.char (q.body text)) =
    some (.literal (.string text) (q.char.toString ++ q.body text ++ q.char.toString)) := by
  have hbody : unescape (q.body text).toList = text.toList := by
    rw [Quote.body, String.toList_ofList, unescape_escaped]
  rw [atom?, literal?, hbody, String.ofList_toList]
  rfl

theorem stops_sign (op : DyadicOperator) : Stops (op.rank + 2) (.mark op.sign :: rest) := by
  rintro x ⟨⟩
  exact continuesAt_sign op

theorem closing_listed {ts : List Tree} (h : ts ≠ []) :
    Token.mark ")" ∉ (listed ts ++ .mark ")" :: rest).head? := by
  obtain ⟨x, xs, hxs, hx⟩ := (isPhrase_listed ts h).first
  rw [hxs]
  rintro ⟨⟩
  simp [Token.BeginsOperand] at hx

theorem isRead_atom {t : Tree} {x : Token} (htokens : t.tokens 0 = [x])
    (hx : atom? x = some t.node) : t.IsRead 0 := by
  intro depth rest ys a _ _ hcontinues
  rw [htokens]
  exact reads_atom hx hcontinues

theorem isRead_monadic {op : MonadicOperator} {x : Tree} (hx : x.IsRead 1) :
    (monadic op x).IsRead 1 := by
  rintro depth rest ys a hdepth hrest ⟨ha, hys⟩
  have htokens : (monadic op x).tokens 1 = .mark op.sign :: x.tokens 1 := rfl
  -- Nothing goes on at the level of signs.
  have hstops : Stops 2 rest := by
    intro y hy i hi
    obtain rfl | rfl : i = 0 ∨ i = 1 := by omega
    · exact hrest y hy 0 Nat.one_pos
    · rfl
  rw [htokens] at hdepth ⊢
  rw [List.length_cons] at hdepth
  rw [ha, hys]
  exact reads_signed op (hx.ends (by omega) hstops)

/-- The left operand is read with what follows it, the right one for itself. -/
theorem isRead_dyadic {op : DyadicOperator} {x y : Tree} (hx : x.IsRead (op.rank + 2))
    (hy : y.IsRead (op.rank + 1)) : (dyadic op x y).IsRead (op.rank + 2) := by
  intro depth rest ys a hdepth hrest hcontinues
  have htokens : (dyadic op x y).tokens (op.rank + 2)
      = x.tokens (op.rank + 2) ++ .mark op.sign :: y.tokens (op.rank + 1) := tokens_of_le le_rfl
  rw [htokens] at hdepth ⊢
  rw [List.length_append, List.length_cons] at hdepth
  rw [List.append_assoc]
  have hright : Reads (level depth (op.rank + 1)) (y.tokens (op.rank + 1) ++ rest) y.node rest :=
    hy.ends (by omega) hrest
  exact hx (by omega) (stops_sign op) (continues_dyadic hright hcontinues)

theorem isRead_member {x : Tree} {n : Name} (hx : x.IsRead 0) : (member x n).IsRead 0 := by
  intro depth rest ys a hdepth _ hcontinues
  have htokens : (member x n).tokens 0 = x.tokens 0 ++ [.mark ".", .word n.text] := rfl
  rw [htokens] at hdepth ⊢
  rw [List.length_append] at hdepth
  rw [List.append_assoc]
  exact hx (by omega) nofun (continues_member hcontinues)

/-- Arguments are read one after another, each as a whole expression. -/
def AreRead (ts : List Tree) : Prop :=
  ∀ ⦃depth : ℕ⦄ ⦃rest : List Token⦄, (listed ts).length ≤ depth →
    ReadsList (expression depth) (.mark ",") (.mark ")") (listed ts ++ .mark ")" :: rest) (nodes ts)
      rest

theorem isRead_call {x : Tree} {arguments : List Tree} (hx : x.IsRead 0)
    (harguments : arguments ≠ [] → AreRead arguments) : (call x arguments).IsRead 0 := by
  intro depth rest ys a hdepth _ hcontinues
  have htokens : (call x arguments).tokens 0
      = x.tokens 0 ++ .mark "(" :: (listed arguments ++ [.mark ")"]) := rfl
  rw [htokens] at hdepth ⊢
  simp only [List.length_append, List.length_cons, List.length_nil] at hdepth
  have hread : Reads ((expression depth).enclosed (.mark ",") (.mark ")"))
      (listed arguments ++ .mark ")" :: rest) (nodes arguments) rest := by
    by_cases hnil : arguments = []
    · subst hnil
      exact Reads.enclosed_nil
    · exact (harguments hnil (by omega)).enclosed (by decide) (closing_listed hnil)
  rw [List.append_assoc, List.cons_append, List.append_assoc]
  exact hx (by omega) nofun (continues_call hread hcontinues)

theorem areRead_single {t : Tree} (h : t.IsRead 7) : AreRead [t] := by
  intro depth rest hdepth
  have htokens : listed [t] = t.tokens 7 := (tokens_of_le t.looseness_le).symm
  rw [htokens] at hdepth ⊢
  exact .last (h.expression hdepth (stops_mark (.inl rfl)))

theorem areRead_cons {t u : Tree} {ts : List Tree} (h : t.IsRead 7) (hs : AreRead (u :: ts)) :
    AreRead (t :: u :: ts) := by
  intro depth rest hdepth
  have htokens : listed (t :: u :: ts) = t.tokens 7 ++ .mark "," :: listed (u :: ts) := by
    rw [listed, tokens_of_le t.looseness_le]
  rw [htokens] at hdepth ⊢
  rw [List.length_append, List.length_cons] at hdepth
  rw [List.append_assoc]
  exact .step (h.expression (by omega) (stops_mark (.inr rfl))) (hs (by omega))

mutual

/-- Every tree is read at every level at which it is written. -/
theorem isRead : ∀ (t : Tree), ∀ n ≤ 7, t.IsRead n
  | name n => isRead_of_looseness (isRead_atom rfl (atom?_word n))
  | numeral n => by
    refine isRead_of_looseness (isRead_atom rfl ?_)
    rw [atom?, literal?, n.numeralValue_digits]
    rfl
  | constant c => isRead_of_looseness (isRead_atom rfl (atom?_constant c))
  | quoted q text => isRead_of_looseness (isRead_atom rfl (atom?_quoted q text))
  | monadic op x => isRead_of_looseness (isRead_monadic (isRead x 1 (by decide)))
  | dyadic op x y => by
    have hrank := op.rank_le
    refine isRead_of_looseness (isRead_dyadic (isRead x _ ?_) (isRead y _ ?_))
    · omega
    · omega
  | member x n => isRead_of_looseness (isRead_member (isRead x 0 (by decide)))
  | call x arguments =>
    isRead_of_looseness (isRead_call (isRead x 0 (by decide)) (areRead arguments))

theorem areRead : ∀ ts : List Tree, ts ≠ [] → AreRead ts
  | [], h => absurd rfl h
  | [t], _ => areRead_single (isRead t 7 le_rfl)
  | t :: u :: ts, _ =>
    areRead_cons (isRead t 7 le_rfl) (areRead (u :: ts) (List.cons_ne_nil u ts))

end

end Tree

/-! ## Texts -/

/-- Tokens without an arrow write no parameters. -/
theorem arrowForm_eq_none {body : Reader Token Node} (h : Token.mark "=>" ∉ xs) :
    arrowForm body xs = none := by
  have hnames : ∀ {closing : String} {zs ys : List Token} {ps : List String},
      Reads (names closing) zs ps ys → .mark closing :: ys <:+ zs :=
    suffix_of_enclosed Reads.suffix_of_item
  unfold arrowForm
  refine andThen_eq_none_of_eq_none (orElse_eq_none ?_ ?_)
  · refine andThen_eq_none fun _ ys hys => andThen_eq_none fun _ zs hzs => ?_
    refine map_eq_none (exactly_eq_none fun hhead => h ?_)
    have hsuffix : zs <:+ xs :=
      ((List.suffix_cons _ _).trans (hnames hzs)).trans (Reads.suffix_of_item hys)
    exact hsuffix.subset (List.mem_of_mem_head? hhead)
  · refine eq_none_iff.mpr fun _ ys hys => h ?_
    exact (hnames hys).subset List.mem_cons_self

theorem functionForm_eq_none {body : Reader Token Node} (h : Token.word "function" ∉ xs.head?) :
    functionForm body xs = none := by
  unfold functionForm
  exact andThen_eq_none_of_eq_none (exactly_eq_none h)

theorem ofTokens?_tokens (t : Tree) : ofTokens? (t.tokens 7) = some ⟨[], t.node⟩ := by
  have hwritten := (t.isPhrase_tokens 7).written
  have hfunction : Token.word "function" ∉ (t.tokens 7).head? := fun h =>
    (hwritten _ (List.mem_of_mem_head? h)).notFunction rfl
  have harrow : Token.mark "=>" ∉ t.tokens 7 := fun h =>
    absurd (hwritten _ h).wellSpelled (by simp [Token.WellSpelled, Token.expressionMarks])
  have hread : Reads (expression (t.tokens 7).length) (t.tokens 7 ++ []) t.node [] :=
    (t.isRead 7 le_rfl).expression le_rfl nofun
  rw [List.append_nil] at hread
  have hform : Reads (form (expression (t.tokens 7).length)) (t.tokens 7) ⟨[], t.node⟩ [] :=
    .orElse_right (functionForm_eq_none hfunction)
      (.orElse_right (arrowForm_eq_none harrow) (hread.map _))
  obtain ⟨hlt, hform⟩ := hform
  rw [ofTokens?, hform]

theorem tooLarge?_tokens (t : Tree) : tooLarge? (t.tokens 7) = none := by
  refine List.findSome?_eq_none_iff.mpr fun x hx => ?_
  split
  · rename_i raw
    have hsmall := ((t.isPhrase_tokens 7).written _ hx).notTooLarge raw rfl
    rw [if_neg (by simp [hsmall])]
  · rfl

/-- A text that spells a tree, with any gaps between its tokens, is parsed into that tree. -/
theorem ofText_of_spaced (t : Tree) {text : String} (h : Token.Spaced (t.tokens 7) text.toList) :
    ofText text = .ok ⟨[], t.node⟩ := by
  have hphrase := t.isPhrase_tokens 7
  have hall : Token.all? text.toList = some (t.tokens 7) :=
    Token.all?_of_spaced h hphrase.apart fun x hx => (hphrase.written x hx).wellSpelled
  simp only [ofText, hall, ofTokens?_tokens, tooLarge?_tokens]

/-- The double of a difference, and a call. -/
def doubledDifference : Tree :=
  let a : Name := ⟨"a", ⟨'a', [], rfl, by decide, by simp⟩, by decide⟩
  let f : Name := ⟨"f", ⟨'f', [], rfl, by decide, by simp⟩, by decide⟩
  let one : Numeral := ⟨"1", ⟨by decide, List.all_eq_true.mp (by decide)⟩, by decide⟩
  let two : Numeral := ⟨"2", ⟨by decide, List.all_eq_true.mp (by decide)⟩, by decide⟩
  .dyadic .strictNe
    (.dyadic .mul (.dyadic .sub (.name a) (.numeral one)) (.numeral two))
    (.call (.name f) [.quoted .double "q\""])

/-- A text with a comment in it, and without white space in places. -/
def doubledDifferenceText : String :=
  "(a-1) *2 /* twice */ !== f(\"q\\\"\")\n"

theorem spaced_doubledDifference :
    Token.Spaced (doubledDifference.tokens 7) doubledDifferenceText.toList := by
  have hnone : Token.IsGap [] := ⟨.nil, by simp⟩
  have hblank : Token.IsGap [' '] := ⟨.blank rfl .nil, by simp [Token.isBlank]⟩
  have hend : Token.IsGap ['\n'] := ⟨.blank rfl .nil, by simp [Token.isBlank]⟩
  have htwice : Token.IsComment "/* twice */".toList :=
    .block (by decide : ¬ ['*', '/'] <:+: " twice ".toList)
  have hcomment : Token.IsGap (' ' :: ("/* twice */".toList ++ [' '])) :=
    ⟨.blank rfl (.comment htwice (.blank rfl .nil)), by simp [Token.isBlank]⟩
  exact .cons hnone <| .cons hnone <| .cons hnone <| .cons hnone <| .cons hnone <| .cons hblank <|
    .cons hnone <| .cons hcomment <| .cons hblank <| .cons hnone <| .cons hnone <| .cons hnone <|
    .nil hend

theorem ofText_doubledDifference :
    Token.Spaced (doubledDifference.tokens 7) doubledDifferenceText.toList ∧
      ofText doubledDifferenceText = .ok ⟨[], doubledDifference.node⟩ :=
  ⟨spaced_doubledDifference, ofText_of_spaced doubledDifference spaced_doubledDifference⟩

end QueryCompiler.Closure
