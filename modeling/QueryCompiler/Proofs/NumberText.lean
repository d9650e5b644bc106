import Mathlib
import QueryCompiler.Decimal.Layout

/-!
# The characters of a number's text

Integers and floats are written with digits, signs, a point and the mark of an exponent, whatever
the layout. So the text of a number has no quotes, no brackets and no separators in it.
-/

namespace QueryCompiler

/-- A character of a number's text. -/
def isNumeralChar (c : Char) : Bool :=
  c.isDigit || c = '-' || c = '+' || c = '.' || c = 'e'

/-- A test on characters that digits, signs, points and the mark of an exponent pass. -/
theorem of_isNumeralChar {p : Char → Prop} (hdigit : ∀ c, c.isDigit = true → p c)
    (hother : ∀ c ∈ ['-', '+', '.', 'e'], p c) {c : Char} (h : isNumeralChar c = true) : p c := by
  simp only [isNumeralChar, Bool.or_eq_true, decide_eq_true_eq] at h
  rcases h with (((h | rfl) | rfl) | rfl) | rfl
  · exact hdigit c h
  all_goals exact hother _ (by simp)

theorem isNumeralChar_of_isDigit {c : Char} (h : c.isDigit = true) : isNumeralChar c = true := by
  simp [isNumeralChar, h]

theorem isNumeralChar_of_mem_toDigits {n : ℕ} {c : Char} (h : c ∈ Nat.toDigits 10 n) :
    isNumeralChar c = true :=
  isNumeralChar_of_isDigit (Nat.isDigit_of_mem_toDigits (by decide) (by decide) h)

theorem toList_toString_nat (n : ℕ) : (toString n).toList = Nat.toDigits 10 n := by
  have htext : toString n = String.ofList (Nat.toDigits 10 n) := rfl
  rw [htext, String.toList_ofList]

theorem toList_toString_ofNat (n : ℕ) : (toString (n : ℤ)).toList = Nat.toDigits 10 n := by
  have htext : toString (n : ℤ) = String.ofList (Nat.toDigits 10 n) := rfl
  rw [htext, String.toList_ofList]

theorem toList_toString_negSucc (n : ℕ) :
    (toString (Int.negSucc n)).toList = '-' :: Nat.toDigits 10 (n + 1) := by
  have htext : toString (Int.negSucc n) = "-" ++ String.ofList (Nat.toDigits 10 (n + 1)) := rfl
  rw [htext, String.toList_append, String.toList_ofList]
  simp

theorem isNumeralChar_of_mem_toString {n : ℤ} {c : Char} (h : c ∈ (toString n).toList) :
    isNumeralChar c = true := by
  rcases n with n | n
  · rw [Int.ofNat_eq_natCast, toList_toString_ofNat] at h
    exact isNumeralChar_of_mem_toDigits h
  · rw [toList_toString_negSucc, List.mem_cons] at h
    rcases h with rfl | h
    · rfl
    · exact isNumeralChar_of_mem_toDigits h

theorem toList_toString_ne_nil (n : ℤ) : (toString n).toList ≠ [] := by
  rcases n with n | n
  · rw [Int.ofNat_eq_natCast, toList_toString_ofNat]
    exact Nat.toDigits_ne_nil
  · rw [toList_toString_negSucc]
    exact List.cons_ne_nil _ _

namespace FloatLayout

variable (layout : FloatLayout) {digits : List Char}

theorem isNumeralChar_pointZero :
    ∀ c ∈ if layout.pointZero then ['.', '0'] else [], isNumeralChar c = true := by
  split_ifs
  · exact List.all_eq_true.mp rfl
  · exact List.forall_mem_nil _

theorem isNumeralChar_positionally (h : ∀ c ∈ digits, isNumeralChar c = true) (exponent : ℤ) :
    ∀ c ∈ layout.positionally digits exponent, isNumeralChar c = true := by
  have hzeros : ∀ n, ∀ c ∈ List.replicate n '0', isNumeralChar c = true := fun n c hc => by
    rw [List.eq_of_mem_replicate hc]
    rfl
  have hpointZero := layout.isNumeralChar_pointZero
  unfold positionally
  dsimp only
  split
  · exact List.forall_mem_append.mpr ⟨List.forall_mem_append.mpr ⟨h, hzeros _⟩, hpointZero⟩
  · split
    · refine List.forall_mem_append.mpr ⟨fun c hc => h c (List.mem_of_mem_take hc), ?_⟩
      exact List.forall_mem_cons.mpr ⟨rfl, fun c hc => h c (List.mem_of_mem_drop hc)⟩
    · exact List.forall_mem_cons.mpr
        ⟨rfl, List.forall_mem_cons.mpr ⟨rfl, List.forall_mem_append.mpr ⟨hzeros _, h⟩⟩⟩

theorem isNumeralChar_scientifically (h : ∀ c ∈ digits, isNumeralChar c = true) (leading : ℤ) :
    ∀ c ∈ layout.scientifically digits leading, isNumeralChar c = true := by
  have hsign : ∀ c ∈ (if leading < 0 then ['-'] else if layout.plusSign then ['+'] else []),
      isNumeralChar c = true := by
    split_ifs
    · exact List.all_eq_true.mp rfl
    · exact List.all_eq_true.mp rfl
    · exact List.forall_mem_nil _
  refine List.forall_mem_append.mpr ⟨?_, fun c => isNumeralChar_of_mem_toDigits⟩
  refine List.forall_mem_append.mpr ⟨?_, List.forall_mem_cons.mpr ⟨rfl, hsign⟩⟩
  split
  · exact List.forall_mem_nil _
  · exact h
  · obtain ⟨hd, hds⟩ := List.forall_mem_cons.mp h
    exact List.forall_mem_cons.mpr ⟨hd, List.forall_mem_cons.mpr ⟨rfl, hds⟩⟩

theorem isNumeralChar_positive (x : BinaryNumber) :
    ∀ c ∈ layout.positive x, isNumeralChar c = true := by
  have hdigits : ∀ n : ℕ, ∀ c ∈ Nat.toDigits 10 n, isNumeralChar c = true := fun n c =>
    isNumeralChar_of_mem_toDigits
  unfold positive
  dsimp only
  split_ifs
  all_goals first
    | exact layout.isNumeralChar_positionally (hdigits _) _
    | exact layout.isNumeralChar_scientifically (hdigits _) _

theorem isNumeralChar_of_mem_write {x : Float} {c : Char} (h : c ∈ (layout.write x).toList) :
    isNumeralChar c = true := by
  have hmagnitude : ∀ c ∈ (if (floatMagnitude x).mantissa = 0 then
      '0' :: (if layout.pointZero then ['.', '0'] else []) else layout.positive (floatMagnitude x)),
      isNumeralChar c = true := by
    split
    · exact List.forall_mem_cons.mpr ⟨rfl, layout.isNumeralChar_pointZero⟩
    · exact layout.isNumeralChar_positive _
  rw [write, String.toList_ofList] at h
  split at h
  · rcases List.mem_cons.mp h with rfl | h
    · rfl
    · exact hmagnitude c h
  · exact hmagnitude c h

theorem positive_ne_nil (x : BinaryNumber) : layout.positive x ≠ [] := by
  have hpositionally : ∀ {digits : List Char}, digits ≠ [] → ∀ exponent,
      layout.positionally digits exponent ≠ [] := by
    intro digits hne exponent
    unfold positionally
    dsimp only
    split_ifs <;> simp [hne]
  unfold positive
  dsimp only
  split_ifs
  all_goals first
    | exact hpositionally Nat.toDigits_ne_nil _
    | simp [scientifically]

theorem toList_write_ne_nil (x : Float) : (layout.write x).toList ≠ [] := by
  rw [write, String.toList_ofList]
  split
  · exact List.cons_ne_nil _ _
  · split
    · exact List.cons_ne_nil _ _
    · exact layout.positive_ne_nil _

end FloatLayout

end QueryCompiler
