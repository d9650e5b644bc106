import QueryCompiler.Proofs.ExpressionEnds

/-!
# Forms of closures

An expression stands behind an arrow, by itself or between braces, or in a function with a name or
without one (`Closure.Form`). In each of these forms the grammar reads the parameters that stand
there and the expression (`Closure.Form.reads`).
-/

namespace QueryCompiler.Closure

open Grammar

/-- What stands between braces besides the expression. -/
structure Block where
  /-- The expression stands behind `return`. -/
  returned : Bool
  /-- A semicolon stands behind the expression. -/
  ended : Bool

/-- How a closure is written: as `x => e`, `(x, y) => { return e; }` or `function g(x) { e }`, and so
on. -/
inductive Form
  /-- Parameters, in parentheses or not, an arrow, and the expression by itself or in a block. -/
  | arrow (parenthesised : Bool) (block : Option Block)
  /-- A function, which may have a name. -/
  | function (name : Option Name) (block : Block)

/-! ## Tokens of forms -/

namespace Block

def tokensBefore (b : Block) : List Token :=
  if b.returned then [.mark "\x7b", .word "return"] else [.mark "\x7b"]

def tokensBehind (b : Block) : List Token :=
  if b.ended then [.mark ";", .mark "\x7d"] else [.mark "\x7d"]

end Block

/-- Names with commas between them. -/
def parameterTokens : List Name → List Token
  | [] => []
  | [x] => [.word x.text]
  | x :: y :: names => .word x.text :: .mark "," :: parameterTokens (y :: names)

namespace Form

/-- What stands in front of the parameters. -/
def openingTokens : Form → List Token
  | arrow false _ => []
  | arrow true _ => [.mark "("]
  | function none _ => [.word "function", .mark "("]
  | function (some g) _ => [.word "function", .word g.text, .mark "("]

/-- What stands between the parameters and the expression. -/
def tokensBetween : Form → List Token
  | arrow false block => .mark "=>" :: block.elim [] Block.tokensBefore
  | arrow true block => .mark ")" :: .mark "=>" :: block.elim [] Block.tokensBefore
  | function _ block => .mark ")" :: block.tokensBefore

/-- What stands behind the expression. -/
def tokensBehind : Form → List Token
  | arrow _ block => block.elim [] Block.tokensBehind
  | function _ block => block.tokensBehind

/-- The tokens of a closure with the tokens of its expression. -/
def tokens (form : Form) (parameters : List Name) (xs : List Token) : List Token :=
  form.openingTokens ++ (parameterTokens parameters ++
    (form.tokensBetween ++ (xs ++ form.tokensBehind)))

end Form

/-! ## Reading forms -/

theorem readsList_parameters {closing : String} {rest : List Token} :
    ∀ (x : Name) (names : List Name), ReadsList (Reader.item name?) (.mark ",") (.mark closing)
      (parameterTokens (x :: names) ++ .mark closing :: rest) ((x :: names).map Name.text) rest
  | x, [] => .last (.item (if_neg x.notKeyword))
  | x, y :: names => .step (.item (if_neg x.notKeyword)) (readsList_parameters y names)

theorem head?_parameterTokens {x : Name} {names : List Name} {rest : List Token} :
    (parameterTokens (x :: names) ++ rest).head? = some (.word x.text) := by
  cases names <;> rfl

theorem reads_names {closing : String} (hclosing : closing ≠ ",") (parameters : List Name)
    (rest : List Token) :
    Reads (names closing) (parameterTokens parameters ++ .mark closing :: rest)
      (parameters.map Name.text) rest := by
  cases parameters with
  | nil => exact .enclosed_nil
  | cons x names =>
    refine (readsList_parameters x names).enclosed (by simpa using hclosing.symm) ?_
    rw [head?_parameterTokens]
    rintro ⟨⟩

section

variable {body : Reader Token Node} {xs tail : List Token} {node : Node}

theorem ne_nil_of_reads (h : Reads body (xs ++ tail) node tail) : xs ≠ [] := by
  rintro rfl
  exact absurd h.1 (lt_irrefl _)

theorem Block.reads (b : Block) (hhead : ∀ x ∈ xs.head?, x ∉ outerTokens)
    (hbody : Reads body (xs ++ b.tokensBehind) node b.tokensBehind) :
    Reads (block body) (b.tokensBefore ++ (xs ++ b.tokensBehind)) node [] := by
  have hend : Reads ((mark "\x7d").orElse ((mark ";").andThen fun _ => mark "\x7d")) b.tokensBehind
      () [] := by
    unfold Block.tokensBehind
    split_ifs
    · exact .orElse_right (exactly_eq_none (by simp)) (.andThen (.exactly _) (.exactly _))
    · exact .orElse_left (.exactly _)
  have hreturn : Token.word "return" ∉ (xs ++ b.tokensBehind).head? := by
    rw [List.head?_append_of_ne_nil _ (ne_nil_of_reads hbody)]
    exact fun hreturn => hhead _ hreturn (by decide)
  unfold Block.tokensBefore
  split_ifs
  · exact .andThen (.exactly _) (.andThen (.orElse_left (.andThen (.exactly _) hbody)) (hend.map _))
  · exact .andThen (.exactly _) (.andThen
      (.orElse_right (andThen_eq_none_of_eq_none (exactly_eq_none hreturn)) hbody) (hend.map _))

/-- An expression by itself or in a block. -/
theorem reads_body (block? : Option Block) (hhead : ∀ x ∈ xs.head?, x ∉ outerTokens)
    (hbody : Reads body (xs ++ block?.elim [] Block.tokensBehind) node
      (block?.elim [] Block.tokensBehind)) :
    Reads ((block body).orElse body) (block?.elim [] Block.tokensBefore ++
      (xs ++ block?.elim [] Block.tokensBehind)) node [] := by
  cases block? with
  | none =>
    refine .orElse_right (andThen_eq_none_of_eq_none (exactly_eq_none ?_)) hbody
    rw [Option.elim_none, Option.elim_none, List.nil_append, List.append_nil]
    exact fun hbrace => hhead _ hbrace (by decide)
  | some b => exact .orElse_left (b.reads hhead hbody)

/-- The parameters of an arrow. -/
def arrowParameters : Reader Token (List String) :=
  ((mark "(").andThen fun _ => (names ")").andThen fun parameters =>
    (mark "=>").map fun _ => parameters).orElse (names "=>")

theorem reads_arrowParameters (parameters : List Name) : Reads arrowParameters
    (parameterTokens parameters ++ .mark "=>" :: tail) (parameters.map Name.text) tail := by
  have hparenthesis :
      Token.mark "(" ∉ (parameterTokens parameters ++ .mark "=>" :: tail).head? := by
    cases parameters with
    | nil => simp [parameterTokens]
    | cons x names =>
      rw [head?_parameterTokens]
      rintro ⟨⟩
  exact .orElse_right (andThen_eq_none_of_eq_none (exactly_eq_none hparenthesis))
    (reads_names (by decide) parameters tail)

theorem reads_parenthesisedParameters (parameters : List Name) : Reads arrowParameters
    (.mark "(" :: (parameterTokens parameters ++ .mark ")" :: .mark "=>" :: tail))
    (parameters.map Name.text) tail := by
  have hnames : Reads (names ")") (parameterTokens parameters ++ .mark ")" :: .mark "=>" :: tail)
      (parameters.map Name.text) (.mark "=>" :: tail) := reads_names (by decide) parameters _
  exact .orElse_left (.andThen (.exactly _) (.andThen hnames (.map _ (.exactly _))))

theorem reads_arrowForm {names : List String} {ys : List Token}
    (hparameters : Reads arrowParameters ys names tail)
    (hbody : Reads ((block body).orElse body) tail node []) :
    Reads (arrowForm body) ys ⟨names, node⟩ [] :=
  hparameters.andThen (q := fun names => ((block body).orElse body).map fun node =>
    (⟨names, node⟩ : Closure)) (hbody.map _)

/-- A function, with or without a name. -/
theorem reads_functionForm (name : Option Name) (parameters : List Name)
    (h : Reads (block body) tail node []) :
    Reads (functionForm body)
      (.word "function" :: ((name.map fun g => .word g.text).toList ++
        .mark "(" :: (parameterTokens parameters ++ .mark ")" :: tail)))
      ⟨parameters.map Name.text, node⟩ [] := by
  have hnames : Reads (names ")") (parameterTokens parameters ++ .mark ")" :: tail)
      (parameters.map Name.text) tail := reads_names (by decide) parameters tail
  have hrest : Reads ((mark "(").andThen fun _ => (names ")").andThen fun parameters =>
      (block body).map fun node => (⟨parameters, node⟩ : Closure))
      (.mark "(" :: (parameterTokens parameters ++ .mark ")" :: tail))
      ⟨parameters.map Name.text, node⟩ [] :=
    .andThen (.exactly _) (.andThen hnames (h.map fun node => (⟨_, node⟩ : Closure)))
  unfold functionForm
  refine .andThen (.exactly _) ?_
  cases name with
  | none =>
    have hname : ∀ xs, Reader.item name? (.mark "(" :: xs) = none := fun _ => rfl
    exact .orElse_right (andThen_eq_none_of_eq_none (hname _)) hrest
  | some g => exact .orElse_left (.andThen (.item (if_neg g.notKeyword)) hrest)

namespace Form

/-- The first form that reads the tokens is the one in which they stand. -/
theorem reads (form : Form) (parameters : List Name) (hhead : ∀ x ∈ xs.head?, x ∉ outerTokens)
    (hbody : Reads body (xs ++ form.tokensBehind) node form.tokensBehind) :
    Reads (Closure.form body) (form.tokens parameters xs) ⟨parameters.map Name.text, node⟩ [] := by
  cases form with
  | function name block =>
    have hfunction := reads_functionForm name parameters (block.reads hhead hbody)
    cases name with
    | none => exact .orElse_left hfunction
    | some g => exact .orElse_left hfunction
  | arrow parenthesised block? =>
    have hexpression := reads_body block? hhead hbody
    have hfunction : Token.word "function" ∉
        ((arrow parenthesised block?).tokens parameters xs).head? := by
      cases parenthesised with
      | true => rintro ⟨⟩
      | false =>
        cases parameters with
        | nil => rintro ⟨⟩
        | cons x names =>
          have hfirst : ((arrow false block?).tokens (x :: names) xs).head? = some (.word x.text) :=
            head?_parameterTokens
          rw [hfirst]
          exact fun hx => x.isWritten.notFunction (Option.some.inj hx)
    refine .orElse_right (functionForm_eq_none hfunction) (.orElse_left ?_)
    cases parenthesised with
    | false => exact reads_arrowForm (reads_arrowParameters parameters) hexpression
    | true => exact reads_arrowForm (reads_parenthesisedParameters parameters) hexpression

end Form

end

end QueryCompiler.Closure
