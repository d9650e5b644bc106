import QueryCompiler.Closure.Lowering
import QueryCompiler.Proofs.Kept
import QueryCompiler.Proofs.Outcome
import QueryCompiler.Proofs.Representable
import QueryCompiler.Proofs.WholeFloat

/-!
# Literals of closures

A text in which some numeral is too large is no closure. So every literal in the tree of a text is
null, a truth value, a text or a number, all of which a document can represent
(`hasPlainLiterals_ofText`).
-/

namespace QueryCompiler.Closure

open Grammar (Reader Reads Keeps readsMany_many)

/-- What the literal says can be said in a document. -/
def IsPlainLiteral (j : Json) : Prop :=
  Ensures (Value.ofJson j) Law.representable.value

namespace Node

mutual

/-- Every literal of the tree is plain. -/
def HasPlainLiterals : Node → Prop
  | .logical _ left right | .binary _ left right => OptionPlain left ∧ OptionPlain right
  | .unary _ operand _ => operand.HasPlainLiterals
  | .member _ object property => object.HasPlainLiterals ∧ property.HasPlainLiterals
  | .call callee arguments => callee.HasPlainLiterals ∧ AllPlain arguments
  | .literal value _ => IsPlainLiteral value
  | .identifier _ => True

def OptionPlain : Option Node → Prop
  | none => True
  | some node => node.HasPlainLiterals

def AllPlain : List Node → Prop
  | [] => True
  | node :: nodes => node.HasPlainLiterals ∧ AllPlain nodes

end

theorem allPlain_of_forall : ∀ {nodes : List Node}, (∀ node ∈ nodes, node.HasPlainLiterals) →
    AllPlain nodes
  | [], _ => trivial
  | node :: _, h =>
    ⟨h node List.mem_cons_self, allPlain_of_forall fun node hnode => h node (.tail _ hnode)⟩

end Node

/-- The token is no numeral that is too large. -/
def Token.Fits : Token → Prop
  | .numeral raw => isTooLarge raw = false
  | _ => True

theorem numeralValue_eq (raw : String) :
    (∃ n : Int64, numeralValue raw = .integer n.toInt) ∨ ∃ x, numeralValue raw = .float x := by
  unfold numeralValue
  simp only
  split
  · exact .inl ⟨_, rfl⟩
  · exact .inr ⟨_, rfl⟩

theorem isPlainLiteral_numeralValue {raw : String} (h : isTooLarge raw = false) :
    IsPlainLiteral (numeralValue raw) := by
  unfold isTooLarge at h
  rcases numeralValue_eq raw with ⟨n, hn⟩ | ⟨x, hx⟩
  · rw [hn, IsPlainLiteral, Value.ofJson, int64?_toInt]
    exact Ensures.ok ⟨trivial, trivial⟩
  · rw [hx] at h ⊢
    have hfinite : x.isFinite = true := by simpa using h
    exact Ensures.ok ⟨hfinite, trivial⟩

theorem hasPlainLiterals_literal? {token : Token} {node : Node} (htoken : token.Fits)
    (h : literal? token = some node) : node.HasPlainLiterals := by
  unfold literal? at h
  split at h
  · cases h
    exact isPlainLiteral_numeralValue htoken
  · cases h
    exact Ensures.ok ⟨trivial, trivial⟩
  · cases h
    exact Ensures.ok ⟨trivial, trivial⟩
  · cases h
    exact Ensures.ok ⟨trivial, trivial⟩
  · cases h
    exact Ensures.ok ⟨trivial, trivial⟩
  · cases h

theorem hasPlainLiterals_atom? {token : Token} {node : Node} (htoken : token.Fits)
    (h : atom? token = some node) : node.HasPlainLiterals := by
  unfold atom? at h
  cases hliteral : literal? token with
  | some literal =>
    rw [hliteral] at h
    cases h
    exact hasPlainLiterals_literal? htoken hliteral
  | none =>
    rw [hliteral] at h
    obtain ⟨name, -, rfl⟩ := Option.map_eq_some_iff.mp h
    trivial

/-! ## The grammar -/

section Grammar

variable {α : Type} {P : α → Prop} {expression : Reader Token Node}

theorem keeps_mark (m : String) : Keeps Token.Fits (fun _ => True) (mark m) :=
  Keeps.exactly _

theorem keeps_keyword (w : String) : Keeps Token.Fits (fun _ => True) (keyword w) :=
  Keeps.exactly _

theorem keeps_name : Keeps Token.Fits (fun _ => True) (Reader.item name?) :=
  Keeps.item fun _ _ _ _ => trivial

theorem keeps_between {opening closing : String} {p : Reader Token α} (h : Keeps Token.Fits P p) :
    Keeps Token.Fits P (between opening closing p) :=
  (keeps_mark _).andThen fun _ _ => h.andThen fun _ ha => (keeps_mark _).map fun _ _ => ha

theorem keeps_suffix (h : Keeps Token.Fits Node.HasPlainLiterals expression) :
    Keeps Token.Fits (fun f => ∀ node : Node, node.HasPlainLiterals → (f node).HasPlainLiterals)
      (suffix expression) := by
  refine Keeps.orElse ?_ ?_
  · exact (keeps_mark _).andThen fun _ _ => keeps_name.map fun _ _ _ hnode => ⟨hnode, trivial⟩
  · exact (keeps_mark _).andThen fun _ _ =>
      h.enclosed.map fun _ harguments _ hnode => ⟨hnode, Node.allPlain_of_forall harguments⟩

theorem hasPlainLiterals_foldl : ∀ (suffixes : List (Node → Node)) {node : Node},
    (∀ f ∈ suffixes, ∀ node : Node, node.HasPlainLiterals → (f node).HasPlainLiterals) →
      node.HasPlainLiterals → (suffixes.foldl (fun node suffix => suffix node) node).HasPlainLiterals
  | [], _, _, hnode => hnode
  | f :: suffixes, node, h, hnode =>
    hasPlainLiterals_foldl suffixes (fun g hg => h g (.tail _ hg))
      (h f List.mem_cons_self node hnode)

theorem keeps_operand (h : Keeps Token.Fits Node.HasPlainLiterals expression) :
    Keeps Token.Fits Node.HasPlainLiterals (operand expression) := by
  have hfirst : Keeps Token.Fits Node.HasPlainLiterals
      ((Reader.item atom?).orElse (between "(" ")" expression)) :=
    (Keeps.item fun _ _ => hasPlainLiterals_atom?).orElse (keeps_between h)
  rintro xs node ys ⟨_, hreads⟩ hxs
  unfold operand at hreads
  obtain ⟨⟨first, rest⟩, hp, hreads⟩ := Option.map_eq_some_iff.mp hreads
  cases hreads
  obtain ⟨hnode, hrest⟩ := hfirst xs first rest.1 ⟨rest.2, hp⟩ hxs
  obtain ⟨hsuffixes, hlast⟩ := (keeps_suffix h).many (readsMany_many _ rest.1) hrest
  exact ⟨hasPlainLiterals_foldl _ hsuffixes hnode, hlast⟩

theorem hasPlainLiterals_foldr (operators : List String) {node : Node}
    (h : node.HasPlainLiterals) :
    (operators.foldr (fun operator node => Node.unary operator node true) node).HasPlainLiterals := by
  induction operators with
  | nil => exact h
  | cons operator operators ih => exact ih

theorem keeps_signedOperand (h : Keeps Token.Fits Node.HasPlainLiterals expression) :
    Keeps Token.Fits Node.HasPlainLiterals (signedOperand expression) := by
  have hsigns : Keeps Token.Fits (fun _ => True) (Reader.item (markIn ["!", "-"])) :=
    Keeps.item fun _ _ _ _ => trivial
  rintro xs node ys ⟨_, hreads⟩ hxs
  unfold signedOperand at hreads
  obtain ⟨⟨first, rest⟩, hp, hreads⟩ := Option.map_eq_some_iff.mp hreads
  cases hreads
  obtain ⟨-, hbehind⟩ := hsigns.many (readsMany_many _ xs) hxs
  obtain ⟨hnode, hrest⟩ := keeps_operand h _ first rest.1 ⟨rest.2, hp⟩ hbehind
  exact ⟨hasPlainLiterals_foldr _ hnode, hrest⟩

theorem keeps_rank_binary {operators : List String} {p : Reader Token Node}
    (h : Keeps Token.Fits Node.HasPlainLiterals p) :
    Keeps Token.Fits Node.HasPlainLiterals (rank .binary operators p) :=
  h.chain fun _ _ _ hleft hright => ⟨hleft, hright⟩

theorem keeps_rank_logical {operators : List String} {p : Reader Token Node}
    (h : Keeps Token.Fits Node.HasPlainLiterals p) :
    Keeps Token.Fits Node.HasPlainLiterals (rank .logical operators p) :=
  h.chain fun _ _ _ hleft hright => ⟨hleft, hright⟩

theorem keeps_expression (depth : ℕ) :
    Keeps Token.Fits Node.HasPlainLiterals (Closure.expression depth) := by
  induction depth with
  | zero => exact Keeps.none
  | succ depth ih =>
    exact keeps_rank_logical <| keeps_rank_logical <| keeps_rank_binary <| keeps_rank_binary <|
      keeps_rank_binary <| keeps_rank_binary <| keeps_signedOperand ih

theorem keeps_block {body : Reader Token Node} (h : Keeps Token.Fits Node.HasPlainLiterals body) :
    Keeps Token.Fits Node.HasPlainLiterals (block body) := by
  refine (keeps_mark _).andThen fun _ _ =>
    (((keeps_keyword _).andThen fun _ _ => h).orElse h).andThen fun node hnode => ?_
  exact ((keeps_mark _).orElse ((keeps_mark _).andThen fun _ _ => keeps_mark _)).map
    fun _ _ => hnode

theorem keeps_names (closing : String) : Keeps Token.Fits (fun _ => True) (names closing) := by
  intro xs a ys hreads hxs
  exact ⟨trivial, (keeps_name.enclosed xs a ys hreads hxs).2⟩

theorem keeps_form {body : Reader Token Node} (h : Keeps Token.Fits Node.HasPlainLiterals body) :
    Keeps Token.Fits (fun closure => closure.body.HasPlainLiterals) (form body) := by
  refine Keeps.orElse ?_ (Keeps.orElse ?_ (h.map fun _ hnode => hnode))
  · have hrest : Keeps Token.Fits (fun closure : Closure => closure.body.HasPlainLiterals)
        ((mark "(").andThen fun _ => (names ")").andThen fun parameters =>
          (block body).map fun node => ⟨parameters, node⟩) :=
      (keeps_mark _).andThen fun _ _ =>
        (keeps_names _).andThen fun _ _ => (keeps_block h).map fun _ hnode => hnode
    exact (keeps_keyword _).andThen fun _ _ => (keeps_name.andThen fun _ _ => hrest).orElse hrest
  · have hparameters : Keeps Token.Fits (fun _ => True) (((mark "(").andThen fun _ =>
        (names ")").andThen fun parameters => (mark "=>").map fun _ => parameters).orElse
          (names "=>")) :=
      ((keeps_mark _).andThen fun _ _ => (keeps_names _).andThen fun _ _ =>
        (keeps_mark _).map fun _ _ => trivial).orElse (keeps_names _)
    exact hparameters.andThen fun parameters _ =>
      ((keeps_block h).orElse h).map (f := fun node => (⟨parameters, node⟩ : Closure))
        fun _ hnode => hnode

theorem hasPlainLiterals_ofTokens? {tokens : List Token} {closure : Closure}
    (htokens : ∀ token ∈ tokens, token.Fits) (h : ofTokens? tokens = some closure) :
    closure.body.HasPlainLiterals := by
  have hform := keeps_form (keeps_expression tokens.length)
  unfold ofTokens? at h
  split at h
  · rename_i hreads
    cases h
    exact (hform tokens closure _ ⟨_, hreads⟩ htokens).1
  · rename_i hreads
    cases h
    exact (hform tokens closure _ ⟨_, hreads⟩ htokens).1
  · cases h

theorem fits_of_tooLarge? {tokens : List Token} (h : tooLarge? tokens = none) :
    ∀ token ∈ tokens, token.Fits := by
  intro token htoken
  have hnone := List.findSome?_eq_none_iff.mp h token htoken
  cases token with
  | numeral raw => simpa [Token.Fits] using hnone
  | word | quoted | mark => trivial

/-- The literals of a closure's text can be said in a document. -/
theorem hasPlainLiterals_ofText (text : String) :
    Ensures (ofText text) fun closure => closure.body.HasPlainLiterals := by
  unfold ofText
  split
  · exact Ensures.error _
  · split
    · exact Ensures.error _
    · rename_i hclosure
      split
      · exact Ensures.error _
      · rename_i hfits
        exact Ensures.ok (hasPlainLiterals_ofTokens? (fits_of_tooLarge? hfits) hclosure)

end Grammar

end QueryCompiler.Closure
