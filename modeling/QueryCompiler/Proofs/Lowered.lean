import Mathlib.Tactic.SplitIfs
import QueryCompiler.Closure.Lowering
import QueryCompiler.Proofs.Outcome

/-!
# What lowering gives

`Lowers` says for each form of a tree which expressions it can become. Whatever holds of all lowered
trees is shown by induction on it, without going through the lowering itself again.
-/

namespace QueryCompiler.Closure

/-- The ways in which a tree becomes an expression. -/
inductive Lowers (resolver : Resolver) (parameters : List String) : Node → Expression → Prop
  | logical {sign : String} {op : Operator} {left right : Node} {l r : Expression}
      (hop : Operator.ofLogical? sign = some op) (hl : Lowers resolver parameters left l)
      (hr : Lowers resolver parameters right r) :
      Lowers resolver parameters (.logical sign (some left) (some right)) (.logical op [l, r])
  | binary {sign : String} {op : Operator} {left right : Node} {l r e : Expression}
      (hop : Operator.ofBinary? sign = some op) (hl : Lowers resolver parameters left l)
      (hr : Lowers resolver parameters right r) (h : binaryExpression l op r = .ok e) :
      Lowers resolver parameters (.binary sign (some left) (some right)) e
  | field {node : Node} {path : List String} {name : String}
      (hpath : memberPath parameters node = .ok path) (hne : path ≠ [])
      (hname : resolver.path path = .ok name) : Lowers resolver parameters node (.member name)
  | literal {value : Json} {raw : String} {v : Value} (h : Value.ofJson value = .ok v) :
      Lowers resolver parameters (.literal value raw) (.literal v)
  | negative {value : Json} {raw : String} {leads : Bool} {e : Expression}
      (h : negated value = .ok e) : Lowers resolver parameters (.unary "-" (.literal value raw) leads) e
  | call {callee : Node} {arguments : List Node} {name : String} {es : List Expression}
      {e : Expression} (h : resolver.method name es = .ok (some e)) :
      Lowers resolver parameters (.call callee arguments) e

variable {resolver : Resolver} {parameters : List String}

theorem eq_ok_of_orExpressionError {α : Type} {r : Except ExpressionError α} {a : α}
    (h : orExpressionError r = .ok a) : r = .ok a := by
  unfold orExpressionError at h
  split at h
  · cases h
    rfl
  · cases h

theorem eq_of_ofLogical {op : Operator} {operands : List Expression} {e : Expression}
    (h : Expression.ofLogical op operands = .ok e) : e = .logical op operands := by
  unfold Expression.ofLogical at h
  split_ifs at h
  cases h
  rfl

theorem lowers_of_memberField {node : Node} {e : Expression}
    (h : memberField resolver parameters node = .ok e) : Lowers resolver parameters node e := by
  unfold memberField at h
  obtain ⟨path, hpath, h⟩ := exists_of_bind_eq_ok h
  split_ifs at h with hempty
  obtain ⟨name, hname, h⟩ := exists_of_bind_eq_ok h
  cases h
  exact .field hpath hempty hname

theorem exists_of_literalExpression {value : Json} {e : Expression}
    (h : literalExpression value = .ok e) : ∃ v, e = .literal v ∧ Value.ofJson value = .ok v := by
  unfold literalExpression at h
  split at h
  · rename_i v hv
    cases h
    exact ⟨v, rfl, hv⟩
  · cases h

theorem exists_literal_of_negated {value : Json} {e : Expression} (h : negated value = .ok e) :
    ∃ v, e = .literal v := by
  unfold negated at h
  obtain ⟨literal, -, h⟩ := exists_of_bind_eq_ok h
  split at h
  · split at h
    · cases h
      exact ⟨_, rfl⟩
    · cases h
  · cases h
    exact ⟨_, rfl⟩
  · cases h

theorem method_of_methodCall {name : String} {arguments : List Expression} {e : Expression}
    (h : methodCall resolver name arguments = .ok e) :
    resolver.method name arguments = .ok (some e) := by
  unfold methodCall at h
  obtain ⟨result, hresult, h⟩ := exists_of_bind_eq_ok h
  cases result with
  | none => cases h
  | some e' =>
    cases h
    exact hresult

/-- What a call becomes is what the resolver makes of a method. -/
theorem exists_method_of_lower_call {callee : Node} {arguments : List Node} {e : Expression}
    (h : lower resolver parameters (.call callee arguments) = .ok e) :
    ∃ name es, resolver.method name es = .ok (some e) := by
  cases callee with
  | member computed object property =>
    obtain ⟨name, rfl⟩ | hobject : (∃ name, object = .identifier name) ∨
        ∀ name, object = .identifier name → False := by
      cases object <;> simp
    · rw [lower] at h
      obtain ⟨method, -, h⟩ := exists_of_bind_eq_ok h
      split_ifs at h
      · obtain ⟨es, -, h⟩ := exists_of_bind_eq_ok h
        exact ⟨_, _, method_of_methodCall h⟩
      · obtain ⟨receiver, -, h⟩ := exists_of_bind_eq_ok h
        obtain ⟨es, -, h⟩ := exists_of_bind_eq_ok h
        exact ⟨_, _, method_of_methodCall h⟩
    · rw [lower] at h
      · obtain ⟨method, -, h⟩ := exists_of_bind_eq_ok h
        obtain ⟨receiver, -, h⟩ := exists_of_bind_eq_ok h
        obtain ⟨es, -, h⟩ := exists_of_bind_eq_ok h
        exact ⟨_, _, method_of_methodCall h⟩
      · exact hobject
  | identifier name =>
    rw [lower] at h
    obtain ⟨es, -, h⟩ := exists_of_bind_eq_ok h
    exact ⟨_, _, method_of_methodCall h⟩
  | logical | binary | unary | call | literal => cases h

theorem lowers_of_lower : ∀ {node : Node} {e : Expression},
    lower resolver parameters node = .ok e → Lowers resolver parameters node e
  | .logical operator (some left) (some right), e, h => by
    rw [lower] at h
    split at h
    · cases h
    · rename_i op hop
      obtain ⟨l, hl, h⟩ := exists_of_bind_eq_ok h
      obtain ⟨r, hr, h⟩ := exists_of_bind_eq_ok h
      rw [eq_of_ofLogical (eq_ok_of_orExpressionError h)]
      exact .logical hop (lowers_of_lower hl) (lowers_of_lower hr)
  | .binary operator (some left) (some right), e, h => by
    rw [lower] at h
    split at h
    · cases h
    · rename_i op hop
      obtain ⟨l, hl, h⟩ := exists_of_bind_eq_ok h
      obtain ⟨r, hr, h⟩ := exists_of_bind_eq_ok h
      exact .binary hop (lowers_of_lower hl) (lowers_of_lower hr) (eq_ok_of_orExpressionError h)
  | .member computed object property, e, h => by
    rw [lower] at h
    exact lowers_of_memberField h
  | .identifier identifier, e, h => by
    rw [lower] at h
    exact lowers_of_memberField h
  | .literal value raw, e, h => by
    rw [lower] at h
    obtain ⟨v, rfl, hv⟩ := exists_of_literalExpression h
    exact .literal hv
  | .unary operator operand leads, e, h => by
    by_cases hminus : ∃ value raw, operator = "-" ∧ operand = .literal value raw
    · obtain ⟨value, raw, rfl, rfl⟩ := hminus
      rw [lower] at h
      exact .negative h
    · rw [lower] at h
      · cases h
      · exact fun value raw hoperator hoperand => hminus ⟨value, raw, hoperator, hoperand⟩
  | .call _ _, _, h => by
    obtain ⟨name, es, h⟩ := exists_method_of_lower_call h
    exact .call h
  | .logical _ none _, _, h => by cases h
  | .logical _ (some _) none, _, h => by cases h
  | .binary _ none _, _, h => by
    rw [lower] at h
    split at h <;> cases h
  | .binary _ (some _) none, _, h => by
    rw [lower] at h
    split at h <;> cases h

end QueryCompiler.Closure
