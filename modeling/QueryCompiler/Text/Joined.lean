/-!
# Joined texts

Texts put one after another with a separator in between, and the first place where a text is cut.
-/

namespace QueryCompiler.Text

/-- The texts with `separator` between neighbours. -/
def joined (separator : String) : List String → String
  | [] => ""
  | [s] => s
  | s :: rest => s ++ separator ++ joined separator rest

/-- What stands before and after the first `c`. -/
def splitFirst? (c : Char) : List Char → Option (List Char × List Char)
  | [] => none
  | d :: rest =>
    if d = c then some ([], rest)
    else (splitFirst? c rest).map fun (before, after) => (d :: before, after)

/-- The parts of a text between the places where `c` stands. -/
def splitOn (c : Char) : List Char → List (List Char)
  | [] => [[]]
  | d :: rest =>
    if d = c then [] :: splitOn c rest
    else match splitOn c rest with
      | part :: parts => (d :: part) :: parts
      | [] => [[d]]

theorem joined_cons_cons (separator s t : String) (rest : List String) :
    joined separator (s :: t :: rest) = s ++ separator ++ joined separator (t :: rest) := rfl

theorem splitFirst?_append {c : Char} {cs before after : List Char}
    (h : splitFirst? c cs = some (before, after)) : cs = before ++ c :: after ∧ c ∉ before := by
  induction cs generalizing before with
  | nil => simp [splitFirst?] at h
  | cons d rest ih =>
    by_cases hd : d = c
    · simp only [splitFirst?, hd, ↓reduceIte, Option.some.injEq, Prod.mk.injEq] at h
      obtain ⟨rfl, rfl⟩ := h
      simp [hd]
    · simp only [splitFirst?, hd, ↓reduceIte, Option.map_eq_some_iff, Prod.mk.injEq,
        Prod.exists] at h
      obtain ⟨b, a, h', rfl, rfl⟩ := h
      obtain ⟨rfl, hc⟩ := ih h'
      exact ⟨rfl, by simpa using ⟨fun e => hd e.symm, hc⟩⟩

end QueryCompiler.Text
