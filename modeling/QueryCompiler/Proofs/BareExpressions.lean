import Mathlib.Tactic.SplitIfs
import QueryCompiler.Closure.Lowering

/-!
# Expressions without parameters

Without parameters a name is a field. `Node.withParameter` makes the same expression about a
parameter: each name that stands for a value becomes a property of the parameter. Both expressions
are lowered to the same expression over fields, or are refused for the same cause
(`Closure.lower_withParameter`), whatever the resolver does and whether the tree can be written as a
text or not.
-/

namespace QueryCompiler.Closure

namespace Node

mutual

/-- The expression with a property of `x` in place of each name that stands for a value. The name of
a property or of a method, and of a function that is called, stands for no value. -/
def withParameter (x : String) : Node → Node
  | .identifier name => .member false (.identifier x) (.identifier name)
  | .member computed object (.identifier name) =>
    .member computed (withParameter x object) (.identifier name)
  | .member computed object property =>
    .member computed (withParameter x object) (withParameter x property)
  | .call (.identifier name) arguments => .call (.identifier name) (allWithParameter x arguments)
  | .call callee arguments => .call (withParameter x callee) (allWithParameter x arguments)
  | .logical operator left right =>
    .logical operator (operandWithParameter x left) (operandWithParameter x right)
  | .binary operator left right =>
    .binary operator (operandWithParameter x left) (operandWithParameter x right)
  | .unary operator operand leads => .unary operator (withParameter x operand) leads
  | .literal value raw => .literal value raw

/-- The same for an operand that may be missing. -/
def operandWithParameter (x : String) : Option Node → Option Node
  | none => none
  | some node => some (withParameter x node)

/-- The same for several expressions. -/
def allWithParameter (x : String) : List Node → List Node
  | [] => []
  | node :: nodes => withParameter x node :: allWithParameter x nodes

end

/-- What becomes of a property and of what is called: a name stays. -/
def besidesName (x : String) : Node → Node
  | .identifier name => .identifier name
  | node => node.withParameter x

variable (x : String)

theorem withParameter_member (computed : Bool) (object property : Node) :
    (member computed object property).withParameter x =
      member computed (object.withParameter x) (property.besidesName x) := by
  cases property <;> rfl

theorem withParameter_call (callee : Node) (arguments : List Node) :
    (call callee arguments).withParameter x =
      call (callee.besidesName x) (allWithParameter x arguments) := by
  cases callee <;> rfl

/-- A name becomes a property, and everything else stays of its kind. -/
theorem kind_withParameter (node : Node) :
    (node.withParameter x).kind = if node.kind = .identifier then .member else node.kind := by
  cases node with
  | identifier | logical | binary | unary | literal => rfl
  | member computed object property =>
    rw [withParameter_member]
    rfl
  | call callee arguments =>
    rw [withParameter_call]
    rfl

theorem withParameter_ne_identifier (node : Node) (name : String) :
    node.withParameter x ≠ identifier name := by
  intro h
  have hkind := kind_withParameter x node
  rw [h] at hkind
  split_ifs at hkind with hname
  · cases hkind
  · exact hname hkind.symm

end Node

open Node

section

variable {x : String} {parameters : List String} (hx : x ∈ parameters)

theorem propertyName_besidesName (property : Node) :
    propertyName (property.besidesName x) = propertyName property := by
  cases property with
  | member computed object property =>
    rw [besidesName, withParameter_member]
    · rfl
    · rintro _ ⟨⟩
  | call callee arguments =>
    rw [besidesName, withParameter_call]
    · rfl
    · rintro _ ⟨⟩
  | identifier | logical | binary | unary | literal => rfl

include hx

theorem memberPath_parameter : memberPath parameters (.identifier x) = .ok [] := by
  rw [memberPath, if_neg (List.ne_nil_of_mem hx), if_pos hx]

theorem memberPath_withParameter : ∀ node : Node,
    memberPath parameters (node.withParameter x) = memberPath [] node
  | .identifier name => by
    rw [withParameter, memberPath, memberPath_parameter hx]
    rfl
  | .member computed object property => by
    rw [withParameter_member, memberPath, memberPath, propertyName_besidesName,
      memberPath_withParameter object]
  | .call callee arguments => by
    rw [withParameter_call]
    rfl
  | .logical .. | .binary .. | .unary .. | .literal .. => rfl

theorem memberField_withParameter (resolver : Resolver) (node : Node) :
    memberField resolver parameters (node.withParameter x) = memberField resolver [] node := by
  rw [memberField, memberField, memberPath_withParameter hx]

end

/-- A method of anything but a namespace takes what it is called on as its first argument. -/
theorem lower_method {resolver : Resolver} {parameters : List String} {object : Node}
    (h : ∀ name, object = .identifier name → isNamespace parameters name = false) (computed : Bool)
    (property : Node) (arguments : List Node) :
    lower resolver parameters (.call (.member computed object property) arguments) = (do
      let method ← propertyName property
      let receiver ← lower resolver parameters object
      methodCall resolver method (receiver :: (← lowerAll resolver parameters arguments))) := by
  obtain ⟨name, rfl⟩ | hobject : (∃ name, object = .identifier name) ∨
      ∀ name, object = .identifier name → False := by
    cases object <;> simp
  · rw [lower, lower, h name rfl]
    rfl
  · rw [lower]
    exact hobject

theorem lower_unary_literal (resolver : Resolver) (parameters : List String) (operator raw : String)
    (value : Json) (leads : Bool) :
    lower resolver parameters (.unary operator (.literal value raw) leads) =
      if operator = "-" then negated value else .error (.unaryOperator operator) := by
  split_ifs with h
  · rw [h, lower]
  · rw [lower]
    rintro _ _ hminus -
    exact h hminus

/-- Only literals have a sign. -/
theorem lower_unary {operand : Node} (h : operand.kind ≠ .literal) (resolver : Resolver)
    (parameters : List String) (operator : String) (leads : Bool) :
    lower resolver parameters (.unary operator operand leads) =
      .error (.unaryOperator operator) := by
  rw [lower]
  rintro value raw - rfl
  exact h rfl

section

variable {x : String} {parameters : List String}

mutual

theorem lower_withParameter_of_mem (hx : x ∈ parameters) (resolver : Resolver) : ∀ node : Node,
    lower resolver parameters (node.withParameter x) = lower resolver [] node
  | .identifier name => by
    rw [withParameter, lower, lower, ← memberField_withParameter hx]
    rfl
  | .member computed object property => by
    rw [withParameter_member, lower, lower, ← memberField_withParameter hx, withParameter_member]
  | .call (.identifier name) arguments => by
    rw [withParameter_call, besidesName, lower, lower,
      lowerAll_withParameter_of_mem hx resolver arguments]
  | .call (.member computed object property) arguments => by
    have hobject : ∀ name, object.withParameter x = .identifier name →
        isNamespace parameters name = false := fun name hname =>
      absurd hname (withParameter_ne_identifier x object name)
    rw [withParameter_call, besidesName, withParameter_member, lower_method hobject,
      lower_method fun name _ => rfl, propertyName_besidesName,
      lower_withParameter_of_mem hx resolver object,
      lowerAll_withParameter_of_mem hx resolver arguments]
    rintro _ ⟨⟩
  | .call (.call callee inner) arguments => by
    rw [withParameter_call, besidesName, withParameter_call]
    · rfl
    · rintro _ ⟨⟩
  | .call (.logical ..) _ | .call (.binary ..) _ => rfl
  | .call (.unary ..) _ | .call (.literal ..) _ => rfl
  | .logical operator (some left) (some right) => by
    rw [withParameter, operandWithParameter, operandWithParameter, lower, lower,
      lower_withParameter_of_mem hx resolver left, lower_withParameter_of_mem hx resolver right]
  | .logical _ none _ | .logical _ (some _) none => rfl
  | .binary operator (some left) (some right) => by
    rw [withParameter, operandWithParameter, operandWithParameter, lower, lower]
    simp only [lower_withParameter_of_mem hx resolver left,
      lower_withParameter_of_mem hx resolver right]
  | .binary operator none _ => by
    rw [withParameter, operandWithParameter, lower, lower]
  | .binary operator (some _) none => by
    rw [withParameter, operandWithParameter, operandWithParameter, lower, lower]
  | .unary operator operand leads => by
    rw [withParameter]
    by_cases hliteral : operand.kind = .literal
    · cases operand with
      | literal value raw => rw [withParameter, lower_unary_literal, lower_unary_literal]
      | identifier | logical | binary | unary | member | call => cases hliteral
    · have hkept : (operand.withParameter x).kind ≠ .literal := by
        rw [kind_withParameter]
        split_ifs
        · decide
        · exact hliteral
      rw [lower_unary hliteral, lower_unary hkept]
  | .literal value raw => by
    rw [withParameter, lower, lower]

theorem lowerAll_withParameter_of_mem (hx : x ∈ parameters) (resolver : Resolver) :
    ∀ nodes : List Node,
    lowerAll resolver parameters (allWithParameter x nodes) = lowerAll resolver [] nodes
  | [] => rfl
  | node :: nodes => by
    rw [allWithParameter, lowerAll, lowerAll, lower_withParameter_of_mem hx resolver node,
      lowerAll_withParameter_of_mem hx resolver nodes]

end

end

/-- An expression without parameters and the same expression about a parameter are lowered to the
same expression over fields, or refused for the same cause. That holds whether the parameter has a
name of its own or one that stands in the expression too. -/
theorem lower_withParameter (resolver : Resolver) (x : String) (node : Node) :
    lower resolver [x] (node.withParameter x) = lower resolver [] node :=
  lower_withParameter_of_mem List.mem_cons_self resolver node

end QueryCompiler.Closure
