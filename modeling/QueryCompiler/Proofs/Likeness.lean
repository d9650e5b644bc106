import Mathlib
import QueryCompiler.Text.Joined

/-!
# Texts that differ in their literals only

Two texts are alike if they are equal but for what stands between quotes, and if the brackets
outside of quotes match (`Likeness.Alike`). Which characters may stand outside of quotes, and which
literals are alike, is a matter of the `Likeness`. Texts that are alike by themselves can be put one
behind the other (`Likeness.Like.append`), joined (`Likeness.Like.joined`) and put between brackets
(`Likeness.Like.brackets`).
-/

namespace QueryCompiler

/-- The character ends no literal, escapes nothing and is no bracket. -/
def isNeutral (c : Char) : Bool :=
  c ≠ '\'' && c ≠ '\\' && c ≠ '(' && c ≠ ')'

/-- The number of brackets that are open behind a text that has no quotes, when some are open before
it; nothing if a bracket is closed that was not opened. -/
def bracketsBehind? : ℕ → List Char → Option ℕ
  | open', [] => some open'
  | open', c :: cs =>
    if c = '(' then bracketsBehind? (open' + 1) cs
    else if c = ')' then match open' with
      | 0 => none
      | open' + 1 => bracketsBehind? open' cs
    else if isNeutral c then bracketsBehind? open' cs
    else none

/-- What may stand outside of quotes, and which bodies of literals are alike. -/
structure Likeness where
  plain : Char → Prop
  body : List Char → List Char → Prop
  plain_of_neutral : ∀ c, isNeutral c = true → plain c
  body_of_neutral : ∀ cs, (∀ c ∈ cs, isNeutral c = true) → body cs cs
  body_append : ∀ {s s' t t'}, body s s' → body t t' → body (s ++ t) (s' ++ t')
  body_eq_nil : ∀ {s s'}, body s s' → (s = [] ↔ s' = [])

namespace Likeness

variable {L : Likeness}

/-- The texts are alike, with so many brackets open before them and so many behind them. -/
inductive Alike (L : Likeness) : ℕ → List Char → List Char → ℕ → Prop
  | nil (n : ℕ) : Alike L n [] [] n
  | char {n m : ℕ} {c : Char} {s s' : List Char} (hc : L.plain c) (h : Alike L n s s' m) :
      Alike L n (c :: s) (c :: s') m
  | opening {n m : ℕ} {s s' : List Char} (h : Alike L (n + 1) s s' m) :
      Alike L n ('(' :: s) ('(' :: s') m
  | closing {n m : ℕ} {s s' : List Char} (h : Alike L n s s' m) :
      Alike L (n + 1) (')' :: s) (')' :: s') m
  | literal {n m : ℕ} {b b' s s' : List Char} (hb : L.body b b') (h : Alike L n s s' m) :
      Alike L n ('\'' :: (b ++ '\'' :: s)) ('\'' :: (b' ++ '\'' :: s')) m

namespace Alike

theorem append {n m k : ℕ} {s s' t t' : List Char} (hs : L.Alike n s s' m)
    (ht : L.Alike m t t' k) : L.Alike n (s ++ t) (s' ++ t') k := by
  induction hs with
  | nil => exact ht
  | char hc _ ih => exact (ih ht).char hc
  | opening _ ih => exact (ih ht).opening
  | closing _ ih => exact (ih ht).closing
  | literal hb _ ih =>
    rw [List.cons_append, List.cons_append, List.append_assoc, List.append_assoc]
    exact (ih ht).literal hb

theorem of_plain (n : ℕ) : ∀ {s : List Char}, (∀ c ∈ s, L.plain c) → L.Alike n s s n
  | [], _ => nil n
  | _ :: _, h => (of_plain n fun c hc => h c (List.mem_cons_of_mem _ hc)).char
      (h _ List.mem_cons_self)

/-- A text without quotes is like itself where its brackets match. -/
theorem of_brackets {m : ℕ} : ∀ {n : ℕ} {s : List Char}, bracketsBehind? n s = some m →
    L.Alike n s s m
  | n, [], h => by
    obtain rfl := Option.some.inj h
    exact nil n
  | n, c :: cs, h => by
    unfold bracketsBehind? at h
    split_ifs at h with hopen hclose hneutral
    · rw [hopen]
      exact (of_brackets h).opening
    · rcases n with _ | n
      · cases h
      · rw [hclose]
        exact (of_brackets h).closing
    · exact (of_brackets h).char (L.plain_of_neutral c hneutral)

theorem eq_nil_iff {n m : ℕ} {s s' : List Char} (h : L.Alike n s s' m) : s = [] ↔ s' = [] := by
  cases h <;> simp

end Alike

/-- The texts are alike and close the brackets that they open, wherever they stand. -/
def Like (L : Likeness) (s s' : String) : Prop :=
  ∀ n, L.Alike n s.toList s'.toList n

namespace Like

variable {s s' t t' : String}

theorem empty : L.Like "" "" := fun n => Alike.nil n

theorem append (hs : L.Like s s') (ht : L.Like t t') : L.Like (s ++ t) (s' ++ t') := fun n => by
  rw [String.toList_append, String.toList_append]
  exact (hs n).append (ht n)

/-- Fixed words. -/
theorem words (h : ∀ n, bracketsBehind? n s.toList = some n) : L.Like s s := fun n =>
  Alike.of_brackets (h n)

theorem of_plain (h : ∀ c ∈ s.toList, L.plain c) : L.Like s s := fun n =>
  Alike.of_plain n h

theorem brackets (h : L.Like s s') : L.Like ("(" ++ s ++ ")") ("(" ++ s' ++ ")") := fun n => by
  have hopen : L.Alike n "(".toList "(".toList (n + 1) := Alike.of_brackets rfl
  have hclose : L.Alike (n + 1) ")".toList ")".toList n := Alike.of_brackets rfl
  simp only [String.toList_append]
  exact (hopen.append (h (n + 1))).append hclose

theorem closed (h : ∀ n, L.Alike n s.toList s'.toList (n + 1)) :
    L.Like (s ++ ")") (s' ++ ")") := fun n => by
  rw [String.toList_append, String.toList_append]
  exact (h n).append (Alike.of_brackets rfl)

theorem literal {b b' : List Char} (h : L.body b b') :
    L.Like (String.ofList ('\'' :: b ++ ['\'']))
      (String.ofList ('\'' :: b' ++ ['\''])) := fun n => by
  rw [String.toList_ofList, String.toList_ofList]
  exact (Alike.nil n).literal h

theorem eq_empty_iff (h : L.Like s s') : s = "" ↔ s' = "" := by
  have := (h 0).eq_nil_iff
  rwa [String.toList_eq_nil_iff, String.toList_eq_nil_iff] at this

theorem joined (hseparator : L.Like t t) : ∀ {parts parts' : List String},
    List.Forall₂ L.Like parts parts' → L.Like (Text.joined t parts) (Text.joined t parts')
  | _, _, .nil => empty
  | _, _, .cons h .nil => h
  | _, _, .cons h (.cons h' hrest) => by
    rw [Text.joined_cons_cons, Text.joined_cons_cons]
    exact (h.append hseparator).append (joined hseparator (.cons h' hrest))

end Like

end Likeness

end QueryCompiler
