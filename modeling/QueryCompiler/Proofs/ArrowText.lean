import Mathlib
import QueryCompiler.Proofs.Precedence

/-!
# Closures of one parameter

A text that spells a name, an arrow and the tokens of a tree, with any gaps in between, is parsed
into the closure with that parameter and that tree (`Closure.ofText_of_spaced_arrow`).
-/

namespace QueryCompiler.Closure

open Grammar

/-- The tokens of a closure with one parameter. -/
def arrowTokens (x : Name) (t : Tree) : List Token :=
  .word x.text :: .mark "=>" :: t.tokens 7

namespace Token

/-- An arrow is a token whatever follows it. -/
theorem all?_arrow (cs : List Char) : all? ('=' :: '>' :: cs) = (all? cs).map (mark "=>" :: ·) := by
  have hread : Reads read ('=' :: '>' :: cs) (mark "=>") cs :=
    ⟨(Nat.lt_succ_self _).trans (Nat.lt_succ_self _), rfl⟩
  exact all?_cons hread rfl (by rintro d ds ⟨⟩)

end Token

/-- The text of a closure with one parameter is cut into its tokens. -/
theorem all?_of_spaced_arrow {x : Name} {t : Tree} {cs : List Char}
    (h : Token.Spaced (arrowTokens x t) cs) : Token.all? cs = some (arrowTokens x t) := by
  have hphrase := t.isPhrase_tokens 7
  cases h with
  | @cons gap cs _ _ hgap h =>
    cases h with
    | @cons gap' cs' _ _ hgap' h =>
      have htokens : Token.all? cs' = some (t.tokens 7) :=
        Token.all?_of_spaced h hphrase.apart fun x hx => (hphrase.written x hx).wellSpelled
      have hstops : (Token.word x.text).StopsAt (gap' ++ ((Token.mark "=>").spelling ++ cs')) := by
        obtain rfl | ⟨c, cs, rfl, hc⟩ := hgap'.eq_nil_or
        · simp [Token.StopsAt, Token.spelling, Token.isNameChar]
        · exact Token.stopsAt_blank _ hc _
      have harrow : (Token.mark "=>").spelling ++ cs' = '=' :: '>' :: cs' := rfl
      rw [Token.all?_filler hgap.filler, Token.all?_spelling x.wellSpelled hstops,
        Token.all?_filler hgap'.filler, harrow, Token.all?_arrow, htokens]
      rfl

/-- The arrow form is the first one that reads the tokens, and its body is an expression. -/
theorem reads_form {x : Name} {t : Tree} {body : Reader Token Node}
    (h : Reads body (t.tokens 7) t.node []) :
    Reads (form body) (arrowTokens x t) ⟨[x.text], t.node⟩ [] := by
  have hfunction : Token.word "function" ∉ (arrowTokens x t).head? := fun hhead =>
    x.isWritten.notFunction (Option.some.inj hhead)
  have hparenthesis : Token.mark "(" ∉ (arrowTokens x t).head? := by
    rintro ⟨⟩
  have hbrace : Token.mark "\x7b" ∉ (t.tokens 7).head? := by
    obtain ⟨y, ys, hys, hy⟩ := (t.isPhrase_tokens 7).first
    rw [hys]
    rintro ⟨⟩
    simp [Token.BeginsOperand] at hy
  have hname : name? (.word x.text) = some x.text := if_neg x.notKeyword
  have hnames : Reads (names "=>") (arrowTokens x t) [x.text] (t.tokens 7) :=
    ReadsList.enclosed (by decide) (by rintro ⟨⟩) (.last (.item hname))
  have hparameters : Reads (((mark "(").andThen fun _ => (names ")").andThen fun parameters =>
      (mark "=>").map fun _ => parameters).orElse (names "=>")) (arrowTokens x t) [x.text]
      (t.tokens 7) :=
    .orElse_right (andThen_eq_none_of_eq_none (exactly_eq_none hparenthesis)) hnames
  have hbody : Reads (((block body).orElse body).map fun node => (⟨[x.text], node⟩ : Closure))
      (t.tokens 7) ⟨[x.text], t.node⟩ [] :=
    (Reads.orElse_right (andThen_eq_none_of_eq_none (exactly_eq_none hbrace)) h).map _
  have harrow : Reads (arrowForm body) (arrowTokens x t) ⟨[x.text], t.node⟩ [] :=
    hparameters.andThen (q := fun parameters => ((block body).orElse body).map fun node =>
      (⟨parameters, node⟩ : Closure)) hbody
  exact .orElse_right (functionForm_eq_none hfunction) (.orElse_left harrow)

theorem ofTokens?_arrowTokens (x : Name) (t : Tree) :
    ofTokens? (arrowTokens x t) = some ⟨[x.text], t.node⟩ := by
  have hlength : (t.tokens 7).length ≤ (arrowTokens x t).length := by
    simp only [arrowTokens, List.length_cons]
    omega
  have hread : Reads (expression (arrowTokens x t).length) (t.tokens 7 ++ []) t.node [] :=
    (t.isRead 7 le_rfl).expression hlength nofun
  rw [List.append_nil] at hread
  obtain ⟨hlt, hform⟩ := reads_form (x := x) hread
  rw [ofTokens?, hform]

/-- A text that spells a closure with one parameter is parsed into that closure. -/
theorem ofText_of_spaced_arrow (x : Name) (t : Tree) {text : String}
    (h : Token.Spaced (arrowTokens x t) text.toList) : ofText text = .ok ⟨[x.text], t.node⟩ := by
  have hlarge : tooLarge? (arrowTokens x t) = none := tooLarge?_tokens t
  simp only [ofText, all?_of_spaced_arrow h, ofTokens?_arrowTokens, hlarge]

end QueryCompiler.Closure
