import QueryCompiler.Proofs.ArrowText
import QueryCompiler.Proofs.Forms
import QueryCompiler.Proofs.LineEnds
import QueryCompiler.Text.Joined

/-!
# Forms of closures

A text that is accepted as a bare expression is the body of closures in every form: behind an arrow,
by itself or between braces, and in a function with a name or without one (`Closure.Form`). All of
them are parsed into the parameters that they name and the tree that the bare expression is
(`Closure.ofText_form`). The line break behind the expression ends a comment in which it may end.
-/

namespace QueryCompiler.Closure

open Grammar

/-! ## Bare expressions -/

/-- The whole text is an expression with that tree. -/
def IsBare (text : String) (node : Node) : Prop :=
  ∃ tokens, Token.all? text.toList = some tokens ∧
    (expression tokens.length).all? tokens = some node ∧ tooLarge? tokens = none

/-! ## Forms -/

namespace Block

/-- What is written in front of the expression. -/
def before (b : Block) : String :=
  if b.returned then "\x7b return " else "\x7b "

/-- What is written behind the expression. -/
def behind (b : Block) : String :=
  if b.ended then "; \x7d" else " \x7d"

end Block

/-- The parameters as they are written. -/
def parameterText (parameters : List Name) : String :=
  Text.joined ", " (parameters.map Name.text)

namespace Form

/-- What is written in front of the parameters. -/
def opening : Form → String
  | arrow false _ => ""
  | arrow true _ => "("
  | function none _ => "function ("
  | function (some g) _ => "function " ++ g.text ++ "("

/-- What is written between the parameters and the expression. -/
def between : Form → String
  | arrow false block => " => " ++ block.elim "" Block.before
  | arrow true block => ") => " ++ block.elim "" Block.before
  | function _ block => ") " ++ block.before

/-- What is written behind the expression. -/
def behind : Form → String
  | arrow _ block => block.elim "" Block.behind
  | function _ block => block.behind

/-- The closure with these parameters and that expression. -/
def text (form : Form) (parameters : List Name) (expression : String) : String :=
  form.opening ++ parameterText parameters ++ form.between ++ expression ++ form.behind

end Form

/-! ## Texts of forms -/

namespace Token

/-- The text is cut into these tokens, whatever stands behind it. -/
def Writes (cs : List Char) (xs : List Token) : Prop :=
  ∀ rest, all? (cs ++ rest) = (all? rest).map (xs ++ ·)

/-- Marks that are tokens whatever stands behind them. -/
def closedMarks : List String :=
  ["=>", "(", ")", "\x7b", "\x7d", ",", ";"]

namespace Writes

variable {cs ds : List Char} {xs ys : List Token}

theorem all?_eq_some (h : Writes cs xs) : all? cs = some xs := by
  have hcs := h []
  rw [List.append_nil, all?] at hcs
  simpa using hcs

theorem nil : Writes [] [] := by
  intro rest
  simp

theorem append (h : Writes cs xs) (h' : Writes ds ys) : Writes (cs ++ ds) (xs ++ ys) := by
  intro rest
  rw [List.append_assoc, h, h', Option.map_map]
  simp only [List.append_assoc]
  rfl

theorem blank {c : Char} (hc : isBlank c = true) (h : Writes cs xs) : Writes (c :: cs) xs := by
  intro rest
  rw [List.cons_append, all?_blank hc, h]

theorem mark {m : String} (hm : m ∈ closedMarks) (h : Writes cs xs) :
    Writes (m.toList ++ cs) (.mark m :: xs) := by
  intro rest
  have hm : all? (m.toList ++ (cs ++ rest)) = (all? (cs ++ rest)).map (.mark m :: ·) := by
    simp only [closedMarks, List.mem_cons, List.not_mem_nil, or_false] at hm
    rcases hm with rfl | rfl | rfl | rfl | rfl | rfl | rfl
    · exact all?_arrow _
    all_goals exact all?_cons ⟨Nat.lt_succ_self _, rfl⟩ rfl (by rintro d ds ⟨⟩)
  rw [List.append_assoc, hm, h, Option.map_map]
  rfl

theorem word {w : String} (hw : (word w).WellSpelled) (h : Writes cs xs)
    (hcs : ∃ c ∈ cs.head?, isNameChar c = false) : Writes (w.toList ++ cs) (.word w :: xs) := by
  intro rest
  obtain ⟨c, hc, hname⟩ := hcs
  have hstops : (Token.word w).StopsAt (cs ++ rest) := by
    intro d hd
    rw [List.head?_append, hc] at hd
    cases hd
    exact hname
  rw [List.append_assoc]
  refine (all?_spelling hw hstops).trans ?_
  rw [h, Option.map_map]
  rfl

theorem parameters (h : Writes cs xs) (hcs : ∃ c ∈ cs.head?, isNameChar c = false) :
    ∀ parameters : List Name,
      Writes ((parameterText parameters).toList ++ cs) (parameterTokens parameters ++ xs)
  | [] => h
  | [x] => word x.wellSpelled h hcs
  | x :: y :: names => by
    have ih := parameters h hcs (y :: names)
    have htext : (parameterText (x :: y :: names)).toList ++ cs =
        x.text.toList ++ (",".toList ++ ' ' :: ((parameterText (y :: names)).toList ++ cs)) := by
      simp [parameterText, Text.joined_cons_cons, String.toList_append]
    rw [htext]
    exact word x.wellSpelled (mark (by decide) (blank rfl ih)) ⟨',', rfl, rfl⟩

/-- A text in front of a line break. -/
theorem line (h : all? cs = some xs) {stop : Char} (hstop : endsLine stop = true)
    (h' : Writes ds ys) : Writes (cs ++ stop :: ds) (xs ++ ys) := by
  intro rest
  rw [List.append_assoc, List.cons_append, all?_append_lineEnd hstop h, h', Option.map_map]
  simp only [List.append_assoc]
  rfl

end Writes

end Token

open Token (Writes)

namespace Block

theorem wellSpelled_return : (Token.word "return").WellSpelled :=
  ⟨'r', ['e', 't', 'u', 'r', 'n'], rfl, rfl, List.all_eq_true.mp (by decide)⟩

theorem writes_before (b : Block) : Writes b.before.toList b.tokensBefore := by
  have hblank : Writes [' '] [] := .blank rfl .nil
  unfold before tokensBefore
  split_ifs
  · have hreturn : Writes (" return ".toList) [.word "return"] :=
      .blank rfl (.word wellSpelled_return hblank ⟨' ', rfl, rfl⟩)
    exact .mark (m := "\x7b") (by decide) hreturn
  · exact .mark (m := "\x7b") (by decide) hblank

theorem writes_behind (b : Block) : Writes b.behind.toList b.tokensBehind := by
  have hbrace : Writes " \x7d".toList [.mark "\x7d"] :=
    .blank rfl (.mark (m := "\x7d") (by decide) .nil)
  unfold behind tokensBehind
  split_ifs
  · exact .mark (m := ";") (by decide) hbrace
  · exact hbrace

end Block

namespace Form

theorem wellSpelled_function : (Token.word "function").WellSpelled :=
  ⟨'f', ['u', 'n', 'c', 't', 'i', 'o', 'n'], rfl, rfl, List.all_eq_true.mp (by decide)⟩

theorem writes_opening : ∀ form : Form, Writes form.opening.toList form.openingTokens := by
  have hparenthesis : Writes "(".toList [.mark "("] := .mark (m := "(") (by decide) .nil
  rintro ((_ | _) | (_ | g))
  · exact .nil
  · exact hparenthesis
  · have htext : "function (".toList = "function".toList ++ ' ' :: "(".toList := rfl
    change Writes "function (".toList _
    rw [htext]
    exact .word wellSpelled_function (.blank rfl hparenthesis) ⟨' ', rfl, rfl⟩
  · have hname : Writes (g.text.toList ++ "(".toList) [.word g.text, .mark "("] :=
      .word g.wellSpelled hparenthesis ⟨'(', rfl, rfl⟩
    have htext : ("function " ++ g.text ++ "(").toList =
        "function".toList ++ ' ' :: (g.text.toList ++ "(".toList) := by
      simp [String.toList_append]
    change Writes ("function " ++ g.text ++ "(").toList _
    rw [htext]
    exact .word wellSpelled_function (.blank rfl hname) ⟨' ', rfl, rfl⟩

theorem writes_between : ∀ form : Form, Writes form.between.toList form.tokensBetween := by
  have hblock : ∀ block : Option Block,
      Writes (block.elim "" Block.before).toList (block.elim [] Block.tokensBefore) := by
    rintro (_ | block)
    · exact .nil
    · exact block.writes_before
  have harrow : ∀ block : Option Block,
      Writes (" => ".toList ++ (block.elim "" Block.before).toList)
        (.mark "=>" :: block.elim [] Block.tokensBefore) := fun block =>
    .blank rfl (.mark (m := "=>") (by decide) (.blank rfl (hblock block)))
  have hclose : ∀ {cs xs}, Writes cs xs → Writes (')' :: cs) (.mark ")" :: xs) :=
    fun h => .mark (m := ")") (by decide) h
  rintro ((_ | _) | _)
  · rw [between, String.toList_append]
    exact harrow _
  · rw [between, String.toList_append]
    exact hclose (harrow _)
  · rw [between, String.toList_append]
    exact hclose (.blank rfl (Block.writes_before _))

/-- A blank or a parenthesis ends the last parameter. -/
theorem head?_between (form : Form) (cs : List Char) :
    ∃ c ∈ (form.between.toList ++ cs).head?, Token.isNameChar c = false := by
  rcases form with (_ | _) | _
  · rw [between, String.toList_append]
    exact ⟨' ', rfl, rfl⟩
  · rw [between, String.toList_append]
    exact ⟨')', rfl, rfl⟩
  · rw [between, String.toList_append]
    exact ⟨')', rfl, rfl⟩

theorem writes_behind : ∀ form : Form, Writes form.behind.toList form.tokensBehind
  | arrow _ none => .nil
  | arrow _ (some block) => block.writes_behind
  | function _ block => block.writes_behind

end Form

/-- The ends of a line. -/
def lineBreaks : List String := ["\n", "\r", "\r\n"]

/-- The tokens of a form are cut from its text, in which the line of the expression ends. -/
theorem Form.all?_text (form : Form) (parameters : List Name) {expression lineBreak : String}
    {xs : List Token} (hbreak : lineBreak ∈ lineBreaks)
    (h : Token.all? expression.toList = some xs) :
    Token.all? (form.text parameters (expression ++ lineBreak)).toList =
      some (form.tokens parameters xs) := by
  have hline : Writes (expression.toList ++ (lineBreak.toList ++ form.behind.toList))
      (xs ++ form.tokensBehind) := by
    simp only [lineBreaks, List.mem_cons, List.not_mem_nil, or_false] at hbreak
    rcases hbreak with rfl | rfl | rfl
    · exact .line h rfl form.writes_behind
    · exact .line h rfl form.writes_behind
    · exact .line h rfl (.blank rfl form.writes_behind)
  have hparameters :=
    (form.writes_between.append hline).parameters (form.head?_between _) parameters
  have htext : (form.text parameters (expression ++ lineBreak)).toList =
      form.opening.toList ++ ((parameterText parameters).toList ++ (form.between.toList ++
        (expression.toList ++ (lineBreak.toList ++ form.behind.toList)))) := by
    simp only [Form.text, String.toList_append, List.append_assoc]
  rw [htext]
  exact (form.writes_opening.append hparameters).all?_eq_some

/-! ## Numerals of forms -/

theorem tooLarge?_append (xs ys : List Token) :
    tooLarge? (xs ++ ys) = (tooLarge? xs).or (tooLarge? ys) :=
  List.findSome?_append

theorem tooLarge?_parameterTokens : ∀ parameters : List Name,
    tooLarge? (parameterTokens parameters) = none
  | [] => rfl
  | [_] => rfl
  | _ :: y :: names => tooLarge?_parameterTokens (y :: names)

/-- No numeral stands outside the expression. -/
theorem Form.tooLarge?_tokens (form : Form) (parameters : List Name) (xs : List Token) :
    tooLarge? (form.tokens parameters xs) = tooLarge? xs := by
  have hopening : tooLarge? form.openingTokens = none := by
    rcases form with (_ | _) | (_ | _) <;> rfl
  have hbetween : tooLarge? form.tokensBetween = none := by
    rcases form with ⟨_ | _, _ | ⟨_ | _, _⟩⟩ | ⟨_, ⟨_ | _, _⟩⟩ <;> rfl
  have hbehind : tooLarge? form.tokensBehind = none := by
    rcases form with ⟨_, _ | ⟨_, _ | _⟩⟩ | ⟨_, ⟨_, _ | _⟩⟩ <;> rfl
  simp only [Form.tokens, tooLarge?_append, hopening, tooLarge?_parameterTokens, hbetween, hbehind,
    Option.none_or, Option.or_none]

/-! ## Closures -/

/-- Tokens that the grammar reads to the end write a closure. -/
theorem ofText_of_reads {text : String} {tokens : List Token} {closure : Closure}
    (hall : Token.all? text.toList = some tokens)
    (hform : Reads (Closure.form (expression tokens.length)) tokens closure [])
    (hlarge : tooLarge? tokens = none) : ofText text = .ok closure := by
  obtain ⟨hlt, hform⟩ := hform
  simp only [ofText, hall, ofTokens?, hform, hlarge]

/-- A bare expression is a closure without parameters. -/
theorem IsBare.ofText_eq {text : String} {node : Node} (h : IsBare text node) :
    ofText text = .ok ⟨[], node⟩ := by
  obtain ⟨tokens, hall, hread, hlarge⟩ := h
  have hread := all?_eq_some_iff.mp hread
  have hinner := not_mem_of_reads hread le_rfl
  have hfunction : Token.word "function" ∉ tokens.head? := fun hx =>
    hinner _ (List.mem_of_mem_head? hx) (by decide)
  have harrow : Token.mark "=>" ∉ tokens := fun hx => hinner _ hx (by decide)
  exact ofText_of_reads hall (.orElse_right (functionForm_eq_none hfunction)
    (.orElse_right (arrowForm_eq_none harrow) (hread.map _))) hlarge

/-- Around a bare expression each form has the parameters that it names and the expression's
tree. -/
theorem IsBare.ofText_form {text : String} {node : Node} (h : IsBare text node) (form : Form)
    (parameters : List Name) {lineBreak : String} (hbreak : lineBreak ∈ lineBreaks) :
    ofText (form.text parameters (text ++ lineBreak)) = .ok ⟨parameters.map Name.text, node⟩ := by
  obtain ⟨tokens, hall, hread, hlarge⟩ := h
  have hread := all?_eq_some_iff.mp hread
  have hinner := not_mem_of_reads hread le_rfl
  have hbehind : IsOuter form.tokensBehind := by
    rcases form with ⟨_, _ | ⟨_, _ | _⟩⟩ | ⟨_, ⟨_, _ | _⟩⟩
    · rintro x ⟨⟩
    all_goals exact isOuter_cons (by decide)
  have hle : tokens.length ≤ (form.tokens parameters tokens).length := by
    simp only [Form.tokens, List.length_append]
    omega
  have hbody : Reads (expression (form.tokens parameters tokens).length)
      (tokens ++ form.tokensBehind) node form.tokensBehind :=
    (alike_expression hbehind le_rfl hle).reads le_rfl hread
  exact ofText_of_reads (form.all?_text parameters hbreak hall)
    (form.reads parameters (fun x hx => hinner x (List.mem_of_mem_head? hx)) hbody)
    ((form.tooLarge?_tokens parameters tokens).trans hlarge)

/-- A bare expression is a closure without parameters, and around it all forms are closures with the
parameters that they name and the same tree. With the line behind the expression ends a comment in
which the expression may end. -/
theorem forms_agree {text : String} {node : Node} (h : IsBare text node) :
    ofText text = .ok ⟨[], node⟩ ∧
      ∀ (form : Form) (parameters : List Name), ∀ lineBreak ∈ lineBreaks,
        ofText (form.text parameters (text ++ lineBreak)) = .ok ⟨parameters.map Name.text, node⟩ :=
  ⟨h.ofText_eq, fun form parameters _ hbreak => h.ofText_form form parameters hbreak⟩

/-- An expression that ends in a comment, in a function with a name and two parameters. -/
theorem forms_agree_doubledPrice :
    let price : Node := .member false (.identifier "x") (.identifier "price")
    let node : Node := .binary "*" (some price) (some (.literal (.integer 2) "2"))
    IsBare "x.price * 2 // twice" node ∧
      ofText "function g(x, y) \x7b x.price * 2 // twice\n \x7d" = .ok ⟨["x", "y"], node⟩ := by
  intro price node
  have hbare : IsBare "x.price * 2 // twice" node :=
    ⟨[.word "x", .mark ".", .word "price", .mark "*", .numeral "2"], by cbv, by cbv, by cbv⟩
  let g : Name := ⟨"g", ⟨'g', [], rfl, by decide, by simp⟩, by decide⟩
  let x : Name := ⟨"x", ⟨'x', [], rfl, by decide, by simp⟩, by decide⟩
  let y : Name := ⟨"y", ⟨'y', [], rfl, by decide, by simp⟩, by decide⟩
  exact ⟨hbare, (forms_agree hbare).2 (.function (some g) ⟨false, false⟩) [x, y] "\n" (by decide)⟩

end QueryCompiler.Closure
