import Mathlib.Data.List.Infix
import Mathlib.Tactic.SplitIfs
import QueryCompiler.Grammar.Reader
import QueryCompiler.Proofs.Readers

/-!
# Reading up to a boundary

What stands behind the end of a list may change what a reader takes off its front. It does not if
the reader has no use for the first item behind the end: then that item is to it what the end was.
`Alike tail n p q` says so of two readers, which may differ in how deep they go: on lists of at most
`n` items, `q` takes in front of `tail` what `p` takes where the list ends. Each way of putting
readers together keeps that, and where something has been taken already, a smaller `n` is enough.
-/

namespace QueryCompiler.Grammar

variable {τ α β : Type}

/-- What the reader takes off the front, and what it leaves. -/
def Reader.outcome (p : Reader τ α) (xs : List τ) : Option (α × List τ) :=
  (p xs).map fun (a, rest) => (a, rest.1)

namespace Reader

theorem outcome_eq_some_iff {p : Reader τ α} {xs ys : List τ} {a : α} :
    p.outcome xs = some (a, ys) ↔ Reads p xs a ys := by
  constructor
  · intro h
    obtain ⟨⟨b, rest⟩, hp, h⟩ := Option.map_eq_some_iff.mp h
    cases h
    exact ⟨rest.2, hp⟩
  · rintro ⟨hlt, hp⟩
    rw [outcome, hp]
    rfl

theorem outcome_eq_none_iff {p : Reader τ α} {xs : List τ} : p.outcome xs = none ↔ p xs = none :=
  Option.map_eq_none_iff

theorem length_lt_of_outcome {p : Reader τ α} {xs ys : List τ} {a : α}
    (h : p.outcome xs = some (a, ys)) : ys.length < xs.length :=
  (outcome_eq_some_iff.mp h).1

/-- Something has to be taken. -/
theorem outcome_nil (p : Reader τ α) : p.outcome [] = none := by
  cases h : p.outcome [] with
  | none => rfl
  | some result => exact absurd (length_lt_of_outcome h) (Nat.not_lt_zero _)

theorem outcome_item_cons (f : τ → Option α) (x : τ) (xs : List τ) :
    (item f).outcome (x :: xs) = (f x).map fun a => (a, xs) := by
  rw [outcome, item, Option.map_map]
  rfl

theorem outcome_map (f : α → β) (p : Reader τ α) (xs : List τ) :
    (p.map f).outcome xs = (p.outcome xs).map fun (a, ys) => (f a, ys) := by
  rw [outcome, outcome, map, Option.map_map, Option.map_map]
  rfl

theorem outcome_andThen (p : Reader τ α) (q : α → Reader τ β) (xs : List τ) :
    (p.andThen q).outcome xs = (p.outcome xs).bind fun (a, ys) => (q a).outcome ys := by
  rw [outcome, outcome, andThen]
  cases p xs with
  | none => rfl
  | some result =>
    obtain ⟨a, ys⟩ := result
    simp only [Option.bind_eq_bind, Option.bind_some, Option.map_some, outcome]
    cases q a ys.1 with
    | none => rfl
    | some result => rfl

theorem outcome_orElse (p q : Reader τ α) (xs : List τ) :
    (p.orElse q).outcome xs = (p.outcome xs).or (q.outcome xs) := by
  rw [outcome, outcome, orElse]
  cases p xs with
  | none => rfl
  | some result => rfl

end Reader

open Reader

/-- On lists of at most `n` items, `q` takes in front of `tail` what `p` takes where they end. -/
def Alike (tail : List τ) (n : ℕ) (p q : Reader τ α) : Prop :=
  ∀ xs : List τ, xs.length ≤ n →
    q.outcome (xs ++ tail) = (p.outcome xs).map fun (a, ys) => (a, ys ++ tail)

namespace Alike

variable {tail : List τ} {n : ℕ}

theorem reads {p q : Reader τ α} {xs ys : List τ} {a : α} (h : Alike tail n p q)
    (hxs : xs.length ≤ n) (hp : Reads p xs a ys) : Reads q (xs ++ tail) a (ys ++ tail) := by
  rw [← outcome_eq_some_iff, h xs hxs, outcome_eq_some_iff.mpr hp]
  rfl

theorem eq_none {p q : Reader τ α} {xs : List τ} (h : Alike tail n p q)
    (hxs : xs.length ≤ n) (hp : p xs = none) : q (xs ++ tail) = none := by
  rw [← outcome_eq_none_iff, h xs hxs, outcome_eq_none_iff.mpr hp]
  rfl

theorem item {f : τ → Option α} (h : ∀ x ∈ tail.head?, f x = none) :
    Alike tail n (Reader.item f) (Reader.item f) := by
  intro xs _
  cases xs with
  | nil =>
    rw [List.nil_append]
    exact outcome_eq_none_iff.mpr (item_eq_none h)
  | cons x xs =>
    rw [List.cons_append, outcome_item_cons, outcome_item_cons, Option.map_map]
    rfl

theorem exactly [DecidableEq τ] {x : τ} (h : x ∉ tail.head?) :
    Alike tail n (Reader.exactly x) (Reader.exactly x) := by
  refine item fun y hy => if_neg ?_
  rintro rfl
  exact h hy

theorem map {p q : Reader τ α} (f : α → β) (h : Alike tail n p q) :
    Alike tail n (p.map f) (q.map f) := by
  intro xs hxs
  rw [outcome_map, outcome_map, h xs hxs, Option.map_map, Option.map_map]
  rfl

/-- The second reader works on shorter lists. -/
theorem andThen {p q : Reader τ α} {p' q' : α → Reader τ β} (h : Alike tail n p q)
    (h' : ∀ a, ∀ m < n, Alike tail m (p' a) (q' a)) :
    Alike tail n (p.andThen p') (q.andThen q') := by
  intro xs hxs
  rw [outcome_andThen, outcome_andThen, h xs hxs]
  cases hp : p.outcome xs with
  | none => rfl
  | some result =>
    obtain ⟨a, ys⟩ := result
    have hys : ys.length < n := (length_lt_of_outcome hp).trans_le hxs
    exact h' a ys.length hys ys le_rfl

theorem orElse {p q p' q' : Reader τ α} (h : Alike tail n p q) (h' : Alike tail n p' q') :
    Alike tail n (p.orElse p') (q.orElse q') := by
  intro xs hxs
  rw [outcome_orElse, outcome_orElse, h xs hxs, h' xs hxs]
  cases p.outcome xs with
  | none => rfl
  | some result => rfl

/-! ## Loops -/

theorem many {p q : Reader τ α} (h : Alike tail n p q) {xs ys : List τ} {as : List α}
    (hxs : xs.length ≤ n) (hmany : ReadsMany p xs as ys) :
    ReadsMany q (xs ++ tail) as (ys ++ tail) := by
  induction hmany with
  | stop hp => exact .stop (h.eq_none hxs hp)
  | step hp _ ih => exact .step (h.reads hxs hp) (ih (hp.1.le.trans hxs))

theorem manyOutcome {p q : Reader τ α} (h : Alike tail n p q) {xs : List τ} (hxs : xs.length ≤ n) :
    (Reader.many q (xs ++ tail)).1 = (Reader.many p xs).1 ∧
      (Reader.many q (xs ++ tail)).2.1 = (Reader.many p xs).2.1 ++ tail := by
  obtain ⟨hle, hmany⟩ := (h.many hxs (readsMany_many p xs)).many
  rw [hmany]
  exact ⟨rfl, rfl⟩

end Alike

section Chain

variable (p : Reader τ α) (operator : τ → Option β) (build : α → β → α → α)

/-- What a chain makes of an operand and of what stands behind it, and what it leaves. -/
def Reader.chainOutcome (left : α) (xs : List τ) : α × List τ :=
  ((chainFrom p operator build left xs).1, (chainFrom p operator build left xs).2.1)

variable {p operator build} {left : α} {x : τ} {xs ys : List τ}

theorem Reader.chainOutcome_stop (h : ∀ x ∈ xs.head?, operator x = none) :
    chainOutcome p operator build left xs = (left, xs) := by
  cases xs with
  | nil => rw [chainOutcome, chainFrom]
  | cons x xs =>
    rw [chainOutcome, chainFrom]
    split
    · rfl
    · rename_i hop
      rw [h x rfl] at hop
      cases hop

/-- An operator without an operand behind it is left. -/
theorem Reader.chainOutcome_back (h : p.outcome xs = none) :
    chainOutcome p operator build left (x :: xs) = (left, x :: xs) := by
  have hp := outcome_eq_none_iff.mp h
  rw [chainOutcome, chainFrom]
  split
  · rfl
  · split
    · rfl
    · rename_i hsome
      rw [hp] at hsome
      cases hsome

theorem Reader.chainOutcome_step {op : β} {right : α} (hop : operator x = some op)
    (h : p.outcome xs = some (right, ys)) :
    chainOutcome p operator build left (x :: xs) =
      chainOutcome p operator build (build left op right) ys := by
  obtain ⟨hlt, hp⟩ := outcome_eq_some_iff.mp h
  rw [chainOutcome, chainFrom]
  split
  · rename_i hnone
    rw [hop] at hnone
    cases hnone
  · rename_i hsome
    rw [hop] at hsome
    cases hsome
    split
    · rename_i hnone
      rw [hp] at hnone
      cases hnone
    · rename_i hsome
      rw [hp] at hsome
      cases hsome
      rfl

theorem Reader.outcome_chain (xs : List τ) : (chain p operator build).outcome xs =
    (p.outcome xs).map fun (left, ys) => chainOutcome p operator build left ys := by
  rw [outcome, outcome, chain, Option.map_map, Option.map_map]
  rfl

variable {q : Reader τ α} {tail : List τ} {n : ℕ}

theorem Alike.chainOutcome (h : Alike tail n p q) (htail : ∀ x ∈ tail.head?, operator x = none)
    (left : α) (xs : List τ) (hxs : xs.length ≤ n) :
    Reader.chainOutcome q operator build left (xs ++ tail) =
      ((Reader.chainOutcome p operator build left xs).1,
        (Reader.chainOutcome p operator build left xs).2 ++ tail) := by
  -- An operand leaves less than it was given: the induction is on how much is left.
  induction hlength : xs.length using Nat.strong_induction_on generalizing left xs with
  | _ m ih =>
    cases xs with
    | nil =>
      rw [List.nil_append, chainOutcome_stop htail, chainOutcome_stop (by simp)]
      rfl
    | cons x xs =>
      rw [List.length_cons] at hxs hlength
      rw [List.cons_append]
      cases hop : operator x with
      | none => rw [chainOutcome_stop (by simpa), chainOutcome_stop (by simpa), List.cons_append]
      | some op =>
        have hoperand := h xs (by omega)
        cases hp : p.outcome xs with
        | none =>
          rw [hp] at hoperand
          rw [chainOutcome_back hoperand, chainOutcome_back hp, List.cons_append]
        | some result =>
          obtain ⟨right, ys⟩ := result
          have hys := length_lt_of_outcome hp
          rw [hp] at hoperand
          rw [chainOutcome_step hop hoperand, chainOutcome_step hop hp]
          exact ih ys.length (by omega) _ ys (by omega) rfl

theorem Alike.chain (h : Alike tail n p q) (htail : ∀ x ∈ tail.head?, operator x = none) :
    Alike tail n (Reader.chain p operator build) (Reader.chain q operator build) := by
  intro xs hxs
  rw [outcome_chain, outcome_chain, h xs hxs]
  cases hp : p.outcome xs with
  | none => rfl
  | some result =>
    obtain ⟨left, ys⟩ := result
    have hys := length_lt_of_outcome hp
    exact congrArg some (h.chainOutcome htail left ys (by omega))

end Chain

section Lists

variable [DecidableEq τ] {p q : Reader τ α} {separator close : τ} {tail : List τ} {n : ℕ}

theorem Reader.outcome_separated (xs : List τ) :
    (separated p separator close).outcome xs = (p.outcome xs).bind fun (a, ys) => match ys with
      | [] => none
      | y :: ys =>
        if y = close then some ([a], ys)
        else if y = separator then
          ((separated p separator close).outcome ys).map fun (as, zs) => (a :: as, zs)
        else none := by
  rw [outcome, outcome, separated]
  split
  · rename_i hp
    rw [hp]
    rfl
  · rename_i hp
    rw [hp]
    rfl
  · rename_i hp
    rw [hp]
    simp only [Option.map_some, Option.bind_some]
    split_ifs
    · rfl
    · rw [outcome, Option.map_map, Option.map_map]
      rfl
    · rfl

theorem Alike.separated (h : Alike tail n p q) (hclose : close ∉ tail.head?)
    (hseparator : separator ∉ tail.head?) :
    Alike tail n (Reader.separated p separator close) (Reader.separated q separator close) := by
  intro xs hxs
  induction hlength : xs.length using Nat.strong_induction_on generalizing xs with
  | _ m ih =>
    rw [outcome_separated, outcome_separated, h xs hxs]
    cases hp : p.outcome xs with
    | none => rfl
    | some result =>
      obtain ⟨a, ys⟩ := result
      have hys := length_lt_of_outcome hp
      simp only [Option.map_some, Option.bind_some]
      cases ys with
      | nil =>
        cases tail with
        | nil => rfl
        | cons t tail =>
          have hne : t ≠ close ∧ t ≠ separator := by
            constructor <;> rintro rfl
            · exact hclose rfl
            · exact hseparator rfl
          simp [hne]
      | cons y ys =>
        rw [List.length_cons] at hys
        simp only [List.cons_append]
        split_ifs
        · rfl
        · rw [ih ys.length (by omega) ys (by omega) rfl, Option.map_map, Option.map_map]
          rfl
        · rfl

theorem Reader.outcome_enclosed_cons (x : τ) (xs : List τ) :
    (enclosed p separator close).outcome (x :: xs) =
      if x = close then some ([], xs) else (separated p separator close).outcome (x :: xs) := by
  rw [outcome, enclosed]
  split_ifs
  · rfl
  · rfl

theorem Alike.enclosed (h : Alike tail n p q) (hclose : close ∉ tail.head?)
    (hseparator : separator ∉ tail.head?) :
    Alike tail n (Reader.enclosed p separator close) (Reader.enclosed q separator close) := by
  have hseparated := h.separated hclose hseparator
  intro xs hxs
  cases xs with
  | nil =>
    cases tail with
    | nil => rfl
    | cons t tail =>
      have hne : t ≠ close := by
        rintro rfl
        exact hclose rfl
      have hnone := hseparated [] hxs
      rw [outcome_nil, List.nil_append] at hnone
      rw [List.nil_append, outcome_enclosed_cons, if_neg hne]
      exact hnone
  | cons x xs =>
    rw [List.cons_append, outcome_enclosed_cons, outcome_enclosed_cons]
    split_ifs
    · rfl
    · exact hseparated (x :: xs) hxs

end Lists

end QueryCompiler.Grammar
