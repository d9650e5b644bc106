import QueryCompiler.Proofs.Boundaries
import QueryCompiler.Proofs.Precedence

/-!
# Where an expression ends

Some marks and keywords stand around expressions and never in one. In front of such a token an
expression is read as it is where the tokens end (`alike_expression`). Each reader of the grammar
has that from the readers that it is made of, and between parentheses the list is shorter, so that
the induction is on its length. None of these tokens is among those of an expression
(`not_mem_of_reads`).
-/

namespace QueryCompiler.Closure

open Grammar

/-- The marks and keywords that stand around expressions. -/
def outerTokens : List Token :=
  [.mark "=>", .mark "\x7b", .mark "\x7d", .mark ";", .word "function", .word "return"]

/-- The tokens end, or go on with one that stands around expressions. -/
def IsOuter (tail : List Token) : Prop :=
  ∀ x ∈ tail.head?, x ∈ outerTokens

theorem isOuter_cons {x : Token} {xs : List Token} (h : x ∈ outerTokens) : IsOuter (x :: xs) := by
  rintro y ⟨⟩
  exact h

theorem operators_inner : ∀ k, ∀ m ∈ operators k, Token.mark m ∉ outerTokens
  | 0 | 1 | 2 | 3 | 4 => by decide
  | k + 5 => by
    change ∀ m ∈ ["||"], Token.mark m ∉ outerTokens
    decide

namespace IsOuter

variable {tail : List Token} (htail : IsOuter tail)

include htail

theorem name?_eq_none : ∀ x ∈ tail.head?, name? x = none := by
  have houter : ∀ x ∈ outerTokens, name? x = none := by decide
  exact fun x hx => houter x (htail x hx)

theorem atom?_eq_none : ∀ x ∈ tail.head?, atom? x = none := by
  intro x hx
  have houter := htail x hx
  simp only [outerTokens, List.mem_cons, List.not_mem_nil, or_false] at houter
  rcases houter with rfl | rfl | rfl | rfl | rfl | rfl <;> rfl

theorem markIn_eq_none {marks : List String} (h : ∀ m ∈ marks, Token.mark m ∉ outerTokens) :
    ∀ x ∈ tail.head?, markIn marks x = none := by
  intro x hx
  have houter := htail x hx
  unfold markIn
  split
  · rename_i m
    exact if_neg fun hm => h m hm houter
  · rfl

theorem mark_not_mem {m : String} (h : Token.mark m ∉ outerTokens) : Token.mark m ∉ tail.head? :=
  fun hm => h (htail _ hm)

end IsOuter

/-! ## Readers of the grammar -/

section

variable {tail : List Token} {n depth depth' : ℕ} {e e' : Reader Token Node}

theorem outcome_operand (xs : List Token) : (operand e).outcome xs =
    (((Reader.item atom?).orElse (between "(" ")" e)).outcome xs).map fun (node, ys) =>
      ((Reader.many (suffix e) ys).1.foldl (fun node suffix => suffix node) node,
        (Reader.many (suffix e) ys).2.1) := by
  rw [Reader.outcome, Reader.outcome, operand, Option.map_map, Option.map_map]
  rfl

theorem outcome_signedOperand (xs : List Token) : (signedOperand e).outcome xs =
    ((operand e).outcome (Reader.many (Reader.item (markIn ["!", "-"])) xs).2.1).map
      fun (node, ys) => ((Reader.many (Reader.item (markIn ["!", "-"])) xs).1.foldr
        (fun operator node => .unary operator node true) node, ys) := by
  rw [Reader.outcome, Reader.outcome, signedOperand, Option.map_map, Option.map_map]
  rfl

variable (htail : IsOuter tail)

include htail

theorem alike_mark {m : String} (h : Token.mark m ∉ outerTokens) : Alike tail n (mark m) (mark m) :=
  .exactly (htail.mark_not_mem h)

theorem alike_suffix (h : ∀ m < n, Alike tail m e e') : Alike tail n (suffix e) (suffix e') := by
  refine .orElse ?_ ?_
  · refine (alike_mark htail (by decide)).andThen fun _ m _ => .map _ ?_
    exact .item htail.name?_eq_none
  · refine (alike_mark htail (by decide)).andThen fun _ m hm => .map _ ?_
    exact (h m hm).enclosed (htail.mark_not_mem (by decide)) (htail.mark_not_mem (by decide))

theorem alike_first (h : ∀ m < n, Alike tail m e e') :
    Alike tail n ((Reader.item atom?).orElse (between "(" ")" e))
      ((Reader.item atom?).orElse (between "(" ")" e')) := by
  refine .orElse (.item htail.atom?_eq_none) ?_
  refine (alike_mark htail (by decide)).andThen fun _ m hm => ?_
  refine (h m hm).andThen fun _ _ _ => .map _ ?_
  exact alike_mark htail (by decide)

theorem alike_operand (h : ∀ m < n, Alike tail m e e') : Alike tail n (operand e) (operand e') := by
  intro xs hxs
  have hfirst := alike_first htail h xs hxs
  rw [outcome_operand, outcome_operand, hfirst]
  cases hp : ((Reader.item atom?).orElse (between "(" ")" e)).outcome xs with
  | none => rfl
  | some result =>
    obtain ⟨node, ys⟩ := result
    have hys := (Reader.length_lt_of_outcome hp).trans_le hxs
    obtain ⟨hsuffixes, hrest⟩ := (alike_suffix htail h).manyOutcome hys.le
    simp only [Option.map_some, hsuffixes, hrest]

theorem alike_signedOperand (h : ∀ m < n, Alike tail m e e') :
    Alike tail n (signedOperand e) (signedOperand e') := by
  have hsign : Alike tail n (Reader.item (markIn ["!", "-"])) (Reader.item (markIn ["!", "-"])) :=
    .item (htail.markIn_eq_none (by decide))
  intro xs hxs
  obtain ⟨hsigns, hrest⟩ := hsign.manyOutcome hxs
  have hoperand := alike_operand htail h _
    ((Reader.many (Reader.item (markIn ["!", "-"])) xs).2.2.trans hxs)
  rw [outcome_signedOperand, outcome_signedOperand, hsigns, hrest, hoperand, Option.map_map,
    Option.map_map]
  rfl

theorem alike_level (h : ∀ m < n, Alike tail m (expression depth) (expression depth')) :
    ∀ k, Alike tail n (level depth k) (level depth' k)
  | 0 => alike_operand htail h
  | 1 => alike_signedOperand htail h
  | k + 2 => (alike_level h (k + 1)).chain (htail.markIn_eq_none (operators_inner k))

/-- No expression begins with a token that stands around expressions. -/
theorem outcome_expression_eq_none : ∀ depth, (expression depth).outcome tail = none
  | 0 => rfl
  | depth + 1 => by
    have hlevel : Alike tail 0 (level depth 7) (level depth 7) :=
      alike_level htail (fun m hm => absurd hm m.not_lt_zero) 7
    exact (hlevel [] le_rfl).trans (congrArg _ (Reader.outcome_nil _))

/-- How deep a reader goes makes no difference on lists that are not longer. -/
theorem alike_expression (h : n ≤ depth) (h' : n ≤ depth') :
    Alike tail n (expression depth) (expression depth') := by
  induction n using Nat.strong_induction_on generalizing depth depth' with
  | _ n ih =>
    cases n with
    | zero =>
      -- A reader that cannot go down at all refuses, and so does every other where nothing is left.
      intro xs hxs
      obtain rfl := List.eq_nil_of_length_eq_zero (Nat.le_zero.mp hxs)
      rw [Reader.outcome_nil, List.nil_append, outcome_expression_eq_none htail]
      rfl
    | succ n =>
      obtain ⟨depth, rfl⟩ : ∃ d, depth = d + 1 := ⟨depth - 1, by omega⟩
      obtain ⟨depth', rfl⟩ : ∃ d, depth' = d + 1 := ⟨depth' - 1, by omega⟩
      exact alike_level htail (fun m hm => ih m hm (by omega) (by omega)) 7

end

/-- The tokens of an expression do not stand around expressions. -/
theorem not_mem_of_reads {depth : ℕ} {xs : List Token} {a : Node}
    (h : Reads (expression depth) xs a []) (hdepth : xs.length ≤ depth) :
    ∀ x ∈ xs, x ∉ outerTokens := by
  intro x hx houter
  obtain ⟨ys, zs, rfl⟩ := List.append_of_mem hx
  rw [List.length_append] at hdepth
  have hys : ys.length ≤ depth := le_of_add_le_left hdepth
  have htail : IsOuter (x :: zs) := isOuter_cons houter
  -- What stands in front of the token is read for itself, and so the token is left.
  have halike := alike_expression htail hys hys ys le_rfl
  rw [Reader.outcome_eq_some_iff.mpr h] at halike
  obtain ⟨result, -, hresult⟩ := Option.map_eq_some_iff.mp halike.symm
  simp at hresult

end QueryCompiler.Closure
