import QueryCompiler.Decimal.Number
import QueryCompiler.Proofs.DateText
import QueryCompiler.Proofs.NumberText
import QueryCompiler.Proofs.RoundingIntervals

/-!
# The text of a float

Whatever the layout, the text of a float is a decimal with the float's sign, and it rounds to the
float's magnitude (`FloatLayout.exists_decimal_write`). So different floats have different texts in
one layout (`FloatLayout.write_injective`).
-/

namespace QueryCompiler

open Text

namespace Decimal

/-- The number without its sign. -/
def magnitude (d : Decimal) : ℚ :=
  d.digits * 10 ^ d.exponent

variable {whole fraction tail : List Char} {k : ℤ}

/-- A run of digits that ends where the text ends, or where its exponent begins. -/
theorem parts?_whole (hwhole : ∀ c ∈ whole, c.isDigit = true) (hne : whole ≠ [])
    (htail : ∀ c, tail.head? = some c → c = 'e') (hk : exponent? tail = some k) :
    parts? (whole ++ tail) = some (whole, [], k) := by
  have hspan : spanDigits (whole ++ tail) = (whole, tail) :=
    spanDigits_append hwhole fun c hc => by
      rw [htail c hc]
      decide
  have hpoint : ∀ rest, tail ≠ '.' :: rest := by
    rintro rest rfl
    cases htail '.' rfl
  unfold parts?
  rw [hspan]
  dsimp only
  split
  · rename_i rest
    exact absurd rfl (hpoint rest)
  · rw [if_neg fun h => hne h.1, hk]
    rfl

/-- Two runs of digits with a point between them. -/
theorem parts?_fraction (hwhole : ∀ c ∈ whole, c.isDigit = true) (hne : whole ≠ [])
    (hfraction : ∀ c ∈ fraction, c.isDigit = true) (htail : ∀ c, tail.head? = some c → c = 'e')
    (hk : exponent? tail = some k) :
    parts? (whole ++ '.' :: (fraction ++ tail)) = some (whole, fraction, k) := by
  have hspan : spanDigits (whole ++ '.' :: (fraction ++ tail))
      = (whole, '.' :: (fraction ++ tail)) := spanDigits_append hwhole (by simp)
  have hspan' : spanDigits (fraction ++ tail) = (fraction, tail) :=
    spanDigits_append hfraction fun c hc => by
      rw [htail c hc]
      decide
  unfold parts?
  simp only [hspan, hspan', if_neg fun h : whole = [] ∧ fraction = [] => hne h.1, hk]
  rfl

theorem unsigned?_of_parts? (negative : Bool) {cs : List Char}
    (h : parts? cs = some (whole, fraction, k)) :
    unsigned? negative cs = some (ofParts negative whole fraction k) := by
  rw [unsigned?, h]
  rfl

theorem signedValue?_digits {cs : List Char} (hcs : ∀ c ∈ cs, c.isDigit = true) (hne : cs ≠ []) :
    signedValue? cs = some (digitsValue cs : ℤ) ∧
      signedValue? ('+' :: cs) = some (digitsValue cs : ℤ) ∧
        signedValue? ('-' :: cs) = some (-digitsValue cs : ℤ) := by
  have hall : cs.all Char.isDigit = true := List.all_eq_true.mpr hcs
  refine ⟨?_, by simp [signedValue?, hne, hall], by simp [signedValue?, hne, hall]⟩
  unfold signedValue?
  split
  · exact absurd (hcs '-' List.mem_cons_self) (by decide)
  · exact absurd (hcs '+' List.mem_cons_self) (by decide)
  · rw [if_pos ⟨hne, hall⟩]

/-- What begins as digits do has no sign in front. -/
theorem ofChars?_of_unsigned? {cs : List Char} {d : Decimal} (h : unsigned? false cs = some d) :
    ofChars? cs = some d := by
  have hsign : ∀ c rest, c.isDigit = false → c ≠ '.' → parts? (c :: rest) = none := by
    intro c rest hc hpoint
    have hspan : spanDigits (c :: rest) = ([], c :: rest) := by
      change spanDigits ([] ++ c :: rest) = _
      exact spanDigits_append (by simp) (by simpa using hc)
    unfold parts?
    rw [hspan]
    dsimp only
    split
    · rename_i hrest
      cases hrest
      exact absurd rfl hpoint
    · exact if_pos ⟨rfl, rfl⟩
  unfold ofChars?
  split
  · rw [unsigned?, hsign '-' _ (by decide) (by decide)] at h
    cases h
  · rw [unsigned?, hsign '+' _ (by decide) (by decide)] at h
    cases h
  · exact h

theorem magnitude_ofParts (negative : Bool) (whole fraction : List Char) (k : ℤ) :
    (ofParts negative whole fraction k).magnitude
      = digitsValue (whole ++ fraction) * 10 ^ (k - fraction.length) := rfl

end Decimal

namespace FloatLayout

variable (layout : FloatLayout) (negative : Bool)

theorem digitsValue_toDigits (n : ℕ) : digitsValue (Nat.toDigits 10 n) = n := by
  rw [digitsValue_eq_ofDigitChars, Nat.ofDigitChars_ten_toDigits]

theorem isDigit_of_mem_replicate {n : ℕ} : ∀ c ∈ List.replicate n '0', c.isDigit = true := by
  intro c hc
  rw [List.eq_of_mem_replicate hc]
  decide

theorem isDigit_of_mem_toDigits {n : ℕ} : ∀ c ∈ Nat.toDigits 10 n, c.isDigit = true := fun _ hc =>
  Nat.isDigit_of_mem_toDigits (by decide) (by decide) hc

theorem digitsValue_zeros_append (j : ℕ) (cs : List Char) :
    digitsValue (List.replicate j '0' ++ cs) = digitsValue cs := by
  rw [digitsValue_eq_ofDigitChars, Nat.ofDigitChars_append, Nat.ofDigitChars_replicate_zero,
    Nat.mul_zero, digitsValue_eq_ofDigitChars]

theorem digitsValue_append_zeros (j : ℕ) (cs : List Char) :
    digitsValue (cs ++ List.replicate j '0') = digitsValue cs * 10 ^ j := by
  rw [digitsValue_eq_ofDigitChars, Nat.ofDigitChars_append, Nat.ofDigitChars_replicate_zero,
    digitsValue_eq_ofDigitChars, Nat.mul_comm]

/-- A number that is written positionally is read as that number. -/
theorem exists_decimal_positionally (n : ℕ) (exponent : ℤ) :
    ∃ d, Decimal.unsigned? negative (layout.positionally (Nat.toDigits 10 n) exponent) = some d ∧
      d.negative = negative ∧ d.magnitude = n * 10 ^ exponent := by
  have hdigits := isDigit_of_mem_toDigits (n := n)
  have hne : Nat.toDigits 10 n ≠ [] := Nat.toDigits_ne_nil
  have hvalue := digitsValue_toDigits n
  have hlength : 0 < (Nat.toDigits 10 n).length := List.length_pos_iff.mpr hne
  have hend : Decimal.exponent? [] = some 0 := rfl
  generalize Nat.toDigits 10 n = digits at *
  unfold positionally
  dsimp only
  split_ifs with hwhole hzero hpoint
  · -- a whole number, with a point and a zero behind it
    obtain ⟨j, rfl⟩ := Int.eq_ofNat_of_zero_le hwhole
    have hparts := Decimal.parts?_fraction
      (List.forall_mem_append.mpr ⟨hdigits, isDigit_of_mem_replicate (n := j)⟩) (by simp [hne])
      (isDigit_of_mem_replicate (n := 1)) (by simp) hend
    refine ⟨_, Decimal.unsigned?_of_parts? negative hparts, rfl, ?_⟩
    rw [Decimal.magnitude_ofParts, digitsValue_append_zeros, digitsValue_append_zeros, hvalue]
    simp
  · obtain ⟨j, rfl⟩ := Int.eq_ofNat_of_zero_le hwhole
    have hparts := Decimal.parts?_whole
      (List.forall_mem_append.mpr ⟨hdigits, isDigit_of_mem_replicate (n := j)⟩) (by simp [hne])
      (by simp) hend
    refine ⟨_, Decimal.unsigned?_of_parts? negative hparts, rfl, ?_⟩
    rw [Decimal.magnitude_ofParts, List.append_nil, digitsValue_append_zeros, hvalue]
    simp
  · -- the point stands among the digits
    obtain ⟨p, hp⟩ := Int.eq_ofNat_of_zero_le hpoint.le
    have hwhole : ∀ c ∈ digits.take p, c.isDigit = true := fun c hc =>
      hdigits c (List.mem_of_mem_take hc)
    have hfraction : ∀ c ∈ digits.drop p, c.isDigit = true := fun c hc =>
      hdigits c (List.mem_of_mem_drop hc)
    have htake : digits.take p ≠ [] := by
      simp only [ne_eq, List.take_eq_nil_iff, hne, or_false]
      omega
    have hparts := Decimal.parts?_fraction hwhole htake hfraction (by simp) hend
    rw [hp, Int.toNat_natCast, ← List.append_nil (List.drop p digits)]
    refine ⟨_, Decimal.unsigned?_of_parts? negative hparts, rfl, ?_⟩
    rw [Decimal.magnitude_ofParts, List.take_append_drop, hvalue, List.length_drop]
    congr 2
    omega
  · -- zeros stand between the point and the digits
    have hparts := Decimal.parts?_fraction (isDigit_of_mem_replicate (n := 1)) (by simp)
      (List.forall_mem_append.mpr
        ⟨isDigit_of_mem_replicate (n := (-(digits.length + exponent)).toNat), hdigits⟩)
      (by simp) hend
    rw [List.append_nil] at hparts
    refine ⟨_, Decimal.unsigned?_of_parts? negative hparts, rfl, ?_⟩
    rw [Decimal.magnitude_ofParts, digitsValue_zeros_append, digitsValue_zeros_append, hvalue,
      List.length_append, List.length_replicate]
    congr 2
    omega

/-- The mark of an exponent and what stands behind it. -/
theorem exponent?_mark (leading : ℤ) :
    Decimal.exponent? ('e' ::
      (if leading < 0 then ['-'] else if layout.plusSign then ['+'] else []) ++
        Nat.toDigits 10 leading.natAbs) = some leading := by
  obtain ⟨hplain, hplus, hminus⟩ := Decimal.signedValue?_digits
    (isDigit_of_mem_toDigits (n := leading.natAbs)) Nat.toDigits_ne_nil
  rw [digitsValue_toDigits] at hplain hplus hminus
  rw [List.cons_append, Decimal.exponent?, if_pos (.inl rfl)]
  split_ifs
  · rw [List.singleton_append, hminus]
    congr 1
    omega
  · rw [List.singleton_append, hplus]
    congr 1
    omega
  · rw [List.nil_append, hplain]
    congr 1
    omega

/-- A number that is written with an exponent is read as that number. -/
theorem exists_decimal_scientifically (n : ℕ) (exponent : ℤ) :
    ∃ d, Decimal.unsigned? negative (layout.scientifically (Nat.toDigits 10 n)
      ((Nat.toDigits 10 n).length + exponent - 1)) = some d ∧
      d.negative = negative ∧ d.magnitude = n * 10 ^ exponent := by
  have hdigits := isDigit_of_mem_toDigits (n := n)
  have hne : Nat.toDigits 10 n ≠ [] := Nat.toDigits_ne_nil
  have hvalue := digitsValue_toDigits n
  generalize Nat.toDigits 10 n = digits at *
  have hexponent := layout.exponent?_mark (digits.length + exponent - 1)
  have hmark : ∀ rest c, ('e' :: rest).head? = some c → c = 'e' := fun _ _ h =>
    (Option.some.inj h).symm
  unfold scientifically
  dsimp only
  rw [List.cons_append] at hexponent
  split
  · exact absurd rfl hne
  · rename_i c
    have hparts := Decimal.parts?_whole hdigits hne (hmark _) hexponent
    rw [List.append_assoc, List.cons_append]
    refine ⟨_, Decimal.unsigned?_of_parts? negative hparts, rfl, ?_⟩
    rw [Decimal.magnitude_ofParts, List.append_nil, hvalue]
    simp
  · rename_i c cs _
    obtain ⟨hc, hcs⟩ := List.forall_mem_cons.mp hdigits
    have hfirst : ∀ d ∈ [c], d.isDigit = true := by simpa using hc
    have hparts := Decimal.parts?_fraction hfirst (by simp) hcs (hmark _) hexponent
    rw [List.append_assoc, List.cons_append, List.cons_append]
    refine ⟨_, Decimal.unsigned?_of_parts? negative hparts, rfl, ?_⟩
    rw [Decimal.magnitude_ofParts, List.singleton_append, hvalue, List.length_cons]
    congr 2
    push_cast
    ring

theorem exists_decimal_positive (x : BinaryNumber) :
    ∃ d, Decimal.unsigned? negative (layout.positive x) = some d ∧ d.negative = negative ∧
      d.magnitude = (x.shortest layout.tie).digits * 10 ^ (x.shortest layout.tie).exponent := by
  unfold positive
  dsimp only
  split_ifs
  all_goals first
    | exact layout.exists_decimal_positionally negative _ _
    | exact layout.exists_decimal_scientifically negative _ _

theorem exists_decimal_zero :
    ∃ d, Decimal.unsigned? negative ('0' :: (if layout.pointZero then ['.', '0'] else []))
      = some d ∧ d.negative = negative ∧ d.magnitude = 0 := by
  split_ifs
  · exact ⟨⟨negative, 0, -1⟩, rfl, rfl, by simp [Decimal.magnitude]⟩
  · exact ⟨⟨negative, 0, 0⟩, rfl, rfl, by simp [Decimal.magnitude]⟩

end FloatLayout

/-! ## The bits of a float -/

/-- The magnitude by the bits without the sign. -/
theorem floatMagnitude_eq (x : Float) : ∃ bits < 2 ^ 63, x.toBits.toNat % 2 ^ 63 = bits ∧
    ((bits < 2 ^ 52 ∧ floatMagnitude x = ⟨bits, -1074⟩) ∨
      (2 ^ 52 ≤ bits ∧
        floatMagnitude x = ⟨bits % 2 ^ 52 + 2 ^ 52, (bits / 2 ^ 52 : ℕ) - 1075⟩)) := by
  refine ⟨_, Nat.mod_lt _ (by decide), rfl, ?_⟩
  have htwo : twoTo 52 = 2 ^ 52 := rfl
  have htwo' : twoTo 63 = 2 ^ 63 := rfl
  unfold floatMagnitude
  simp only [htwo, htwo']
  split_ifs with hexponent
  · exact .inl ⟨by omega, rfl⟩
  · exact .inr ⟨by omega, rfl⟩

theorem isDouble_floatMagnitude (x : Float) : (floatMagnitude x).IsDouble := by
  obtain ⟨bits, hbits, -, ⟨hlt, hx⟩ | ⟨hle, hx⟩⟩ := floatMagnitude_eq x
  · rw [hx]
    exact ⟨by simp only; omega, le_rfl, by simp, .inl rfl⟩
  · rw [hx]
    refine ⟨?_, ?_, ?_, .inr ?_⟩ <;> simp only <;> omega

theorem bits_floatMagnitude (x : Float) : (floatMagnitude x).bits = x.toBits.toNat % 2 ^ 63 := by
  have htwo : twoTo 52 = 2 ^ 52 := rfl
  obtain ⟨bits, hbits, heq, ⟨hlt, hx⟩ | ⟨hle, hx⟩⟩ := floatMagnitude_eq x
  · rw [hx, heq, BinaryNumber.bits, if_pos (htwo ▸ hlt)]
  · have hexponent : (((bits / 2 ^ 52 : ℕ) : ℤ) - 1075 + 1075).toNat = bits / 2 ^ 52 := by omega
    rw [hx, heq, BinaryNumber.bits, if_neg (by simp only [htwo]; omega)]
    simp only [hexponent, htwo]
    omega

theorem eq_of_toBits_eq {x y : Float} (h : x.toBits = y.toBits) : x = y := by
  obtain ⟨⟨_, _⟩⟩ := x
  obtain ⟨⟨_, _⟩⟩ := y
  obtain rfl : _ = _ := h
  rfl

/-- A float is its sign and its magnitude. -/
theorem eq_of_floatMagnitude_eq {x y : Float} (hsign : floatIsNegative x = floatIsNegative y)
    (h : floatMagnitude x = floatMagnitude y) : x = y := by
  have hbits : x.toBits.toNat % 2 ^ 63 = y.toBits.toNat % 2 ^ 63 := by
    rw [← bits_floatMagnitude, ← bits_floatMagnitude, h]
  have htop : 2 ^ 63 ≤ x.toBits.toNat ↔ 2 ^ 63 ≤ y.toBits.toNat := decide_eq_decide.mp hsign
  have hx := x.toBits.toNat_lt
  have hy := y.toBits.toNat_lt
  refine eq_of_toBits_eq (UInt64.toNat_inj.mp ?_)
  omega

namespace FloatLayout

variable (layout : FloatLayout)

/-- The text of a float is a decimal with its sign that rounds to its magnitude. -/
theorem exists_decimal_write (x : Float) :
    ∃ d, Decimal.ofChars? (layout.write x).toList = some d ∧ d.negative = floatIsNegative x ∧
      (floatMagnitude x).interval.Contains d.magnitude := by
  have hdouble := isDouble_floatMagnitude x
  have hdigits : ∀ negative, ∃ d, Decimal.unsigned? negative
      (if (floatMagnitude x).mantissa = 0 then
        '0' :: (if layout.pointZero then ['.', '0'] else []) else layout.positive (floatMagnitude x))
        = some d ∧ d.negative = negative ∧ (floatMagnitude x).interval.Contains d.magnitude := by
    intro negative
    split
    · rename_i hzero
      obtain ⟨d, hd, hsign, hmagnitude⟩ := layout.exists_decimal_zero negative
      refine ⟨d, hd, hsign, ?_⟩
      rw [hmagnitude]
      have hpow : (0 : ℚ) ≤ 2 ^ ((floatMagnitude x).exponent - 2) := by positivity
      simp [RoundingInterval.Contains, BinaryNumber.interval, hzero, hpow]
    · rename_i hpos
      obtain ⟨d, hd, hsign, hmagnitude⟩ :=
        layout.exists_decimal_positive negative (floatMagnitude x)
      refine ⟨d, hd, hsign, ?_⟩
      rw [hmagnitude]
      exact BinaryNumber.contains_shortest _ hdouble (Nat.pos_of_ne_zero hpos)
  rw [write, String.toList_ofList]
  cases hsign : floatIsNegative x with
  | true => exact hdigits true
  | false =>
    obtain ⟨d, hd, h⟩ := hdigits false
    exact ⟨d, Decimal.ofChars?_of_unsigned? hd, h⟩

/-- Different floats have different texts. -/
theorem write_injective : Function.Injective layout.write := by
  intro x y h
  obtain ⟨d, hd, hsign, hx⟩ := layout.exists_decimal_write x
  obtain ⟨d', hd', hsign', hy⟩ := layout.exists_decimal_write y
  rw [h, hd'] at hd
  cases hd
  exact eq_of_floatMagnitude_eq (hsign.symm.trans hsign')
    (BinaryNumber.eq_of_contains (isDouble_floatMagnitude x) (isDouble_floatMagnitude y) hx hy)

end FloatLayout

end QueryCompiler
