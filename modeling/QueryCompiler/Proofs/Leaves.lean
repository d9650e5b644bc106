import Mathlib.Tactic.SplitIfs
import QueryCompiler.Query.Field
import QueryCompiler.Query.Filter

/-!
# The leaves of a filter

A filter is a tree of connectives over leaves, which are comparisons and functions. Whether it is
true depends on its leaves only (`Filter.truth?`), and combining it with one more leaf adds that
leaf behind the others (`Filter.leaves_combine`) and is the connective of the two truth values
(`Filter.truth?_combine`).
-/

namespace QueryCompiler

/-- Whether a combination of conditions holds. -/
def Connective.holds : Connective → List Bool → Bool
  | .and, bs => bs.all id
  | .or, bs => bs.any id

theorem Connective.holds_concat (connective : Connective) (bs : List Bool) (b : Bool) :
    connective.holds (bs ++ [b]) = connective.holds [connective.holds bs, b] := by
  cases connective <;> simp [holds]

namespace Filter

/-- The filter is no combination. -/
def IsLeaf : Filter → Prop
  | .logical _ _ => False
  | _ => True

mutual

/-- The leaves from left to right. -/
def leaves : Filter → List Filter
  | .logical _ operands => allLeaves operands
  | .compare field t => [.compare field t]
  | .function field func args tests => [.function field func args tests]

def allLeaves : List Filter → List Filter
  | [] => []
  | f :: rest => f.leaves ++ allLeaves rest

end

mutual

/-- The truth value of a filter, given those of its leaves. -/
def truth? (leaf : Filter → Option Bool) : Filter → Option Bool
  | .logical connective operands => (truths? leaf operands).map connective.holds
  | .compare field t => leaf (.compare field t)
  | .function field func args tests => leaf (.function field func args tests)

def truths? (leaf : Filter → Option Bool) : List Filter → Option (List Bool)
  | [] => some []
  | f :: rest => do return (← f.truth? leaf) :: (← truths? leaf rest)

end

variable {f g : Filter}

theorem IsLeaf.leaves (h : f.IsLeaf) : f.leaves = [f] := by
  cases f with
  | logical => exact h.elim
  | compare | function => rfl

theorem IsLeaf.truth? (h : f.IsLeaf) (leaf : Filter → Option Bool) : f.truth? leaf = leaf f := by
  cases f with
  | logical => exact h.elim
  | compare | function => rfl

mutual

/-- Where every leaf has a truth value every filter has one. -/
theorem exists_truth? (truth : Filter → Bool) :
    ∀ f : Filter, ∃ b, f.truth? (some ∘ truth) = some b
  | .compare _ _ => ⟨_, rfl⟩
  | .function _ _ _ _ => ⟨_, rfl⟩
  | .logical connective operands => by
    obtain ⟨bs, hbs⟩ := exists_truths? truth operands
    exact ⟨connective.holds bs, by simp [Filter.truth?, hbs]⟩

theorem exists_truths? (truth : Filter → Bool) :
    ∀ fs : List Filter, ∃ bs, truths? (some ∘ truth) fs = some bs
  | [] => ⟨[], rfl⟩
  | f :: rest => by
    obtain ⟨b, hb⟩ := exists_truth? truth f
    obtain ⟨bs, hbs⟩ := exists_truths? truth rest
    exact ⟨b :: bs, by simp [truths?, hb, hbs]⟩

end

theorem allLeaves_append (fs gs : List Filter) :
    allLeaves (fs ++ gs) = allLeaves fs ++ allLeaves gs := by
  induction fs with
  | nil => simp [allLeaves]
  | cons f fs ih => simp [allLeaves, ih]

theorem truths?_concat (leaf : Filter → Option Bool) (fs : List Filter) (g : Filter) :
    truths? leaf (fs ++ [g])
      = (truths? leaf fs).bind fun bs => (g.truth? leaf).map fun b => bs ++ [b] := by
  induction fs with
  | nil => cases hg : g.truth? leaf <;> simp [truths?, hg]
  | cons f fs ih =>
    cases hf : f.truth? leaf <;> cases hfs : truths? leaf fs <;> cases hg : g.truth? leaf <;>
      simp [truths?, ih, hf, hfs, hg]

theorem leaves_combine (connective : Connective) :
    (f.combine connective g).leaves = f.leaves ++ g.leaves := by
  unfold combine
  split
  · split_ifs
    · simp [leaves, allLeaves_append, allLeaves]
    · simp [leaves, allLeaves]
  · simp [leaves, allLeaves]

theorem truth?_pair (leaf : Filter → Option Bool) (connective : Connective) :
    truth? leaf (.logical connective [f, g])
      = (f.truth? leaf).bind fun b => (g.truth? leaf).map fun b' => connective.holds [b, b'] := by
  cases hf : f.truth? leaf <;> cases hg : g.truth? leaf <;> simp [truth?, truths?, hf, hg]

theorem truth?_combine (leaf : Filter → Option Bool) (connective : Connective) :
    (f.combine connective g).truth? leaf
      = (f.truth? leaf).bind fun b => (g.truth? leaf).map fun b' => connective.holds [b, b'] := by
  unfold combine
  split
  · rename_i root operands
    split_ifs with hroot
    · subst hroot
      rw [truth?, truths?_concat, truth?]
      cases truths? leaf operands <;> cases g.truth? leaf <;> simp [Connective.holds_concat]
    · exact truth?_pair leaf connective
  · exact truth?_pair leaf connective

end Filter

end QueryCompiler
