/-!
# Readers

A reader takes something off the front of a list and returns what is left, which is always
shorter. So every loop over readers ends, and no reader needs a bound on its steps. The two loops
that grammars need are a list between brackets (`Reader.enclosed`) and a chain of operands joined
by operators of one rank (`Reader.chain`).
-/

namespace QueryCompiler.Grammar

/-- What is left of `xs` after something was taken off its front. -/
abbrev Rest {τ : Type} (xs : List τ) := { ys : List τ // ys.length < xs.length }

/-- What is left of `xs` after nothing or something was taken off its front. -/
abbrev Tail {τ : Type} (xs : List τ) := { ys : List τ // ys.length ≤ xs.length }

/-- Takes a value off the front of a list, or refuses. -/
abbrev Reader (τ α : Type) := (xs : List τ) → Option (α × Rest xs)

namespace Rest

variable {τ : Type} {x : τ} {xs ys : List τ}

/-- What is left behind the head of a list. -/
def tail : Rest (x :: xs) :=
  ⟨xs, Nat.lt_succ_self _⟩

/-- What is left behind the head of a list and some more items. -/
def behind (count : Nat) : Rest (x :: xs) :=
  ⟨xs.drop count, Nat.lt_succ_of_le (List.drop_sublist count xs).length_le⟩

/-- What is left behind the head of a list and the items after it that `p` accepts. -/
def behindWhile (p : τ → Bool) : Rest (x :: xs) :=
  ⟨xs.dropWhile p, Nat.lt_succ_of_le (List.dropWhile_sublist p).length_le⟩

/-- A rest of something no longer than `ys` is a rest of `ys`. -/
def within (rest : Rest xs) (h : xs.length ≤ ys.length) : Rest ys :=
  ⟨rest.1, Nat.lt_of_lt_of_le rest.2 h⟩

/-- A rest of a tail is a rest of the whole. -/
def later (rest : Rest xs) : Rest (x :: xs) :=
  rest.within (Nat.le_succ _)

/-- A rest is a tail. -/
def toTail (rest : Rest xs) : Tail xs :=
  ⟨rest.1, Nat.le_of_lt rest.2⟩

/-- What is left when still more is taken off. -/
def andThen (rest : Rest xs) (last : Tail rest.1) : Rest xs :=
  ⟨last.1, Nat.lt_of_le_of_lt last.2 rest.2⟩

end Rest

namespace Tail

variable {τ : Type} {x : τ} {xs : List τ}

/-- All is left. -/
def whole : Tail xs :=
  ⟨xs, Nat.le_refl _⟩

/-- What is left behind the items at the front that `p` accepts. -/
def behindWhile (p : τ → Bool) : Tail xs :=
  ⟨xs.dropWhile p, (List.dropWhile_sublist p).length_le⟩

/-- What is left when still more is taken off. -/
def andThen (tail : Tail xs) (last : Tail tail.1) : Tail xs :=
  ⟨last.1, Nat.le_trans last.2 tail.2⟩

/-- A tail of a tail is a rest of the whole. -/
def later (tail : Tail xs) : Rest (x :: xs) :=
  ⟨tail.1, Nat.lt_succ_of_le tail.2⟩

end Tail

namespace Reader

variable {τ α β : Type}

/-- Takes one item that `p` accepts. -/
def item (p : τ → Option α) : Reader τ α
  | [] => none
  | x :: _ => (p x).map fun a => (a, .tail)

/-- Takes one given item. -/
def exactly [DecidableEq τ] (x : τ) : Reader τ Unit :=
  item fun y => if y = x then some () else none

/-- Applies a function to what is read. -/
def map (f : α → β) (p : Reader τ α) : Reader τ β :=
  fun xs => (p xs).map fun (a, rest) => (f a, rest)

/-- Reads with `p` and then with the reader that depends on the result. -/
def andThen (p : Reader τ α) (q : α → Reader τ β) : Reader τ β := fun xs => do
  let (a, ys) ← p xs
  let (b, zs) ← q a ys
  return (b, zs.within (Nat.le_of_lt ys.2))

/-- Reads with `p`, or with `q` when `p` refuses. -/
def orElse (p q : Reader τ α) : Reader τ α := fun xs =>
  match p xs with
  | some result => some result
  | none => q xs

/-- Reads with `p`, or nothing when `p` refuses. -/
def attempt (p : Reader τ α) (xs : List τ) : Option α × Tail xs :=
  match p xs with
  | some (a, rest) => (some a, rest.toTail)
  | none => (none, .whole)

/-- Reads with `p` until a reading gives nothing, and gives all the others. -/
def untilNone (p : Reader τ (Option α)) : Reader τ (List α) := fun xs =>
  match p xs with
  | none => none
  | some (none, rest) => some ([], rest)
  | some (some a, ⟨ys, h⟩) =>
    (untilNone p ys).map fun (as, rest) => (a :: as, rest.within (Nat.le_of_lt h))
termination_by xs => xs.length

/-- Reads as often as the reader accepts. -/
def many (p : Reader τ α) (xs : List τ) : List α × Tail xs :=
  match p xs with
  | none => ([], ⟨xs, Nat.le_refl _⟩)
  | some (a, ⟨ys, h⟩) =>
    let (as, ⟨zs, h'⟩) := many p ys
    (a :: as, ⟨zs, Nat.le_of_lt (Nat.lt_of_le_of_lt h' h)⟩)
termination_by xs.length

/-- Reads one thing with `first` and as many others as `next` accepts. -/
def oneAndMany (first next : Reader τ α) : Reader τ (List α) := fun xs =>
  (first xs).map fun (a, rest) =>
    let (as, last) := many next rest.1
    (a :: as, rest.andThen last)

/-- Reads one or more things with `separator` between them and `close` behind the last. -/
def separated [DecidableEq τ] (p : Reader τ α) (separator close : τ) : Reader τ (List α) := fun xs =>
  match p xs with
  | none => none
  | some (_, ⟨[], _⟩) => none
  | some (a, ⟨y :: ys, h⟩) =>
    have shorter : ys.length < xs.length := Nat.lt_trans (Nat.lt_succ_self _) h
    if y = close then some ([a], ⟨ys, shorter⟩)
    else if y = separator then
      (separated p separator close ys).map fun (as, rest) =>
        (a :: as, rest.within (Nat.le_of_lt shorter))
    else none
termination_by xs => xs.length

/-- Reads what stands behind an opening bracket: `close`, or things separated up to `close`. -/
def enclosed [DecidableEq τ] (p : Reader τ α) (separator close : τ) : Reader τ (List α)
  | [] => none
  | x :: xs =>
    if x = close then some ([], .tail)
    else separated p separator close (x :: xs)

/-- Reads operators and operands as long as both are there, from the left. -/
def chainFrom (operand : Reader τ α) (operator : τ → Option β) (build : α → β → α → α)
    (left : α) (xs : List τ) : α × Tail xs :=
  match xs with
  | [] => (left, ⟨[], Nat.le_refl _⟩)
  | x :: rest =>
    match operator x with
    | none => (left, ⟨x :: rest, Nat.le_refl _⟩)
    | some op =>
      match operand rest with
      | none => (left, ⟨x :: rest, Nat.le_refl _⟩)
      | some (right, ⟨ys, h⟩) =>
        let (result, ⟨zs, h'⟩) := chainFrom operand operator build (build left op right) ys
        (result, ⟨zs, by simp only [List.length_cons]; omega⟩)
termination_by xs.length
decreasing_by simp only [List.length_cons]; omega

/-- Reads `operand (operator operand)*`, grouping to the left. -/
def chain (operand : Reader τ α) (operator : τ → Option β) (build : α → β → α → α) : Reader τ α :=
  fun xs => (operand xs).map fun (left, ys) =>
    let (result, zs) := chainFrom operand operator build left ys
    (result, ys.andThen zs)

/-- What the reader makes of the whole list. -/
def all? (p : Reader τ α) (xs : List τ) : Option α :=
  match p xs with
  | some (a, ⟨[], _⟩) => some a
  | _ => none

end Reader

end QueryCompiler.Grammar
