import Mathlib
import QueryCompiler.Decimal.Shortest

/-!
# Rounding intervals

The real numbers that round to a number of the double format are an interval around it, and no real
number is in two of these intervals (`BinaryNumber.eq_of_contains`). The search for the fewest
digits never runs out of grids, so the decimal that it gives is in the interval of its number
(`BinaryNumber.contains_shortest`).
-/

namespace QueryCompiler

/-- The number is one that a float can have as its magnitude: it has no smaller exponent. -/
structure BinaryNumber.IsDouble (x : BinaryNumber) : Prop where
  mantissa_lt : x.mantissa < 2 ^ 53
  lowest_le : -1074 ≤ x.exponent
  le_highest : x.exponent ≤ 972
  normal : x.exponent = -1074 ∨ 2 ^ 52 ≤ x.mantissa

namespace RoundingInterval

variable {I : RoundingInterval} {k : ℤ}

/-- The number is in the interval. -/
def Contains (I : RoundingInterval) (v : ℚ) : Prop :=
  if I.closed then I.lower * 2 ^ I.unit ≤ v ∧ v ≤ I.upper * 2 ^ I.unit
  else I.lower * 2 ^ I.unit < v ∧ v < I.upper * 2 ^ I.unit

theorem Contains.le {v : ℚ} (h : I.Contains v) :
    I.lower * (2 : ℚ) ^ I.unit ≤ v ∧ v ≤ I.upper * (2 : ℚ) ^ I.unit := by
  unfold Contains at h
  split at h
  · exact h
  · exact ⟨h.1.le, h.2.le⟩

theorem Contains.lt {v : ℚ} (h : I.Contains v) (hopen : I.closed = false) :
    I.lower * (2 : ℚ) ^ I.unit < v ∧ v < I.upper * (2 : ℚ) ^ I.unit := by
  unfold Contains at h
  rwa [hopen, if_neg Bool.false_ne_true] at h

/-- A power with an exponent of either sign is a quotient of powers. -/
theorem pow_toNat_eq {b : ℕ} (hb : b ≠ 0) (k : ℤ) :
    ((b ^ k.toNat : ℕ) : ℚ) = (b : ℚ) ^ k * (b ^ (-k).toNat : ℕ) := by
  have hb' : (b : ℚ) ≠ 0 := by exact_mod_cast hb
  have hsum : (k.toNat : ℤ) = k + (-k).toNat := by omega
  push_cast
  rw [← zpow_natCast, ← zpow_natCast, hsum, zpow_add₀ hb']

/-- The factor by which both measures are too large. -/
def scale (I : RoundingInterval) (k : ℤ) : ℚ :=
  (2 ^ (-I.unit).toNat : ℕ) * (10 ^ (-k).toNat : ℕ)

theorem scale_pos : 0 < I.scale k := by
  unfold scale
  positivity

theorem step_eq : ((I.measures k).1 : ℚ) = (10 : ℚ) ^ k * I.scale k := by
  have hten := pow_toNat_eq (by decide : 10 ≠ 0) k
  change ((10 ^ k.toNat * 2 ^ (-I.unit).toNat : ℕ) : ℚ) = _
  rw [Nat.cast_mul, hten, scale]
  push_cast
  ring

theorem unit_eq : ((I.measures k).2 : ℚ) = (2 : ℚ) ^ I.unit * I.scale k := by
  have htwo := pow_toNat_eq (by decide : 2 ≠ 0) I.unit
  change ((2 ^ I.unit.toNat * 10 ^ (-k).toNat : ℕ) : ℚ) = _
  rw [Nat.cast_mul, htwo, scale]
  push_cast
  ring

theorem step_pos : 0 < (I.measures k).1 := Nat.mul_pos (tenTo_pos _) (twoTo_pos _)

theorem unit_pos : 0 < (I.measures k).2 := Nat.mul_pos (twoTo_pos _) (tenTo_pos _)

theorem holds_iff (c : ℕ) : I.holds k c = true ↔ I.Contains (c * 10 ^ k) := by
  have hle : ∀ a b : ℕ, a * (I.measures k).2 ≤ b * (I.measures k).1 ↔
      a * (2 : ℚ) ^ I.unit ≤ b * 10 ^ k := by
    intro a b
    rw [← Nat.cast_le (α := ℚ), Nat.cast_mul, Nat.cast_mul, step_eq, unit_eq, ← mul_assoc,
      ← mul_assoc, mul_le_mul_iff_left₀ scale_pos]
  have hge : ∀ a b : ℕ, b * (I.measures k).1 ≤ a * (I.measures k).2 ↔
      b * (10 : ℚ) ^ k ≤ a * 2 ^ I.unit := by
    intro a b
    rw [← Nat.cast_le (α := ℚ), Nat.cast_mul, Nat.cast_mul, step_eq, unit_eq, ← mul_assoc,
      ← mul_assoc, mul_le_mul_iff_left₀ scale_pos]
  unfold holds Contains
  split_ifs
  · simp only [Bool.decide_and, Bool.and_eq_true, decide_eq_true_eq, hle, hge]
  · simp only [Bool.decide_and, Bool.and_eq_true, decide_eq_true_eq, ← not_le, hle, hge]

theorem contains_of_point? {tie : Tie} {c : ℕ} (h : I.point? tie k = some c) :
    I.Contains (c * 10 ^ k) := by
  rw [← holds_iff]
  unfold point? at h
  dsimp only at h
  split at h
  · cases h
  · rename_i hbelow _
    cases h
    exact hbelow
  · rename_i _ habove
    cases h
    exact habove
  · rename_i hbelow habove
    split_ifs at h
    · cases h
      exact hbelow
    · cases h
      exact habove
    · cases tie with
      | up =>
        cases h
        exact habove
      | toEven =>
        cases h
        exact hbelow
    · cases tie <;> cases h <;> exact habove

/-- A grid that is no wider than the unit has a point in the interval. -/
theorem point?_ne_none {tie : Tie} (hlower : I.lower < I.centre) (hupper : I.centre < I.upper)
    (hk : (10 : ℚ) ^ k ≤ 2 ^ I.unit) : I.point? tie k ≠ none := by
  have hstep : (I.measures k).1 ≤ (I.measures k).2 := by
    rw [← Nat.cast_le (α := ℚ), step_eq, unit_eq]
    exact mul_le_mul_of_nonneg_right hk scale_pos.le
  have hbelow : I.holds k (I.centre * (I.measures k).2 / (I.measures k).1) = true := by
    have hpos := step_pos (I := I) (k := k)
    have hunit := unit_pos (I := I) (k := k)
    have hlow : (I.lower + 1) * (I.measures k).2 ≤ I.centre * (I.measures k).2 :=
      Nat.mul_le_mul_right _ hlower
    have hhigh : I.centre * (I.measures k).2 < I.upper * (I.measures k).2 :=
      Nat.mul_lt_mul_of_pos_right hupper hunit
    unfold holds
    dsimp only
    generalize (I.measures k).1 = step at *
    generalize (I.measures k).2 = unit at *
    have hdiv := Nat.div_add_mod (I.centre * unit) step
    have hmod := Nat.mod_lt (I.centre * unit) hpos
    rw [Nat.mul_comm] at hdiv
    rw [Nat.add_mul, Nat.one_mul] at hlow
    have hgt : I.lower * unit < I.centre * unit / step * step := by omega
    have hlt : I.centre * unit / step * step < I.upper * unit := by omega
    simp [hgt, hlt, hgt.le, hlt.le]
  unfold point?
  dsimp only
  rw [hbelow]
  split
  · rename_i hfalse _
    cases hfalse
  · simp
  · simp
  · split_ifs
    · simp
    · simp
    · cases tie <;> simp
    · cases tie <;> simp

/-- The search ends on a grid with a point in the interval, if it comes by one. -/
theorem contains_search {tie : Tie} : ∀ {grids : ℕ} {k : ℤ},
    (∃ j < grids, I.point? tie (k - j) ≠ none) →
      I.Contains ((I.search tie grids k).digits * 10 ^ (I.search tie grids k).exponent)
  | 0, _, ⟨_, hj, _⟩ => absurd hj (Nat.not_lt_zero _)
  | grids + 1, k, ⟨j, hj, hpoint⟩ => by
    rw [search]
    split
    · rename_i c hc
      exact contains_of_point? hc
    · rename_i hnone
      refine contains_search ⟨j - 1, ?_, ?_⟩
      · rcases j with _ | j
        · simp [hnone] at hpoint
        · omega
      · rcases j with _ | j
        · simp [hnone] at hpoint
        · convert hpoint using 2
          push_cast
          omega

end RoundingInterval

namespace BinaryNumber

variable {x y : BinaryNumber}

/-! ## Intervals of different numbers -/

/-- The interval of a smaller number ends where that of a larger one begins, or before, and they do
not both have that end. -/
theorem upper_le_lower (hx : x.IsDouble) (hy : y.IsDouble)
    (h : x.exponent < y.exponent ∨ x.exponent = y.exponent ∧ x.mantissa < y.mantissa) :
    x.interval.upper * (2 : ℚ) ^ x.interval.unit ≤ y.interval.lower * 2 ^ y.interval.unit ∧
      (x.interval.closed = true → y.interval.closed = true →
        x.interval.upper * (2 : ℚ) ^ x.interval.unit < y.interval.lower * 2 ^ y.interval.unit) := by
  -- On the finer of the two scales both ends are whole numbers.
  obtain ⟨hxlt, hxlow, -, -⟩ := hx
  obtain ⟨-, -, -, hynormal⟩ := hy
  obtain ⟨d, hd⟩ : ∃ d : ℕ, y.exponent = x.exponent + d :=
    ⟨(y.exponent - x.exponent).toNat, by omega⟩
  have hscale : (y.interval.lower : ℚ) * 2 ^ y.interval.unit
      = (y.interval.lower * 2 ^ d : ℕ) * (2 : ℚ) ^ x.interval.unit := by
    have hunit : y.interval.unit = d + x.interval.unit := by
      simp only [interval, hd]
      ring
    rw [hunit, zpow_add₀ two_ne_zero, zpow_natCast]
    push_cast
    ring
  have hpos : (0 : ℚ) < 2 ^ x.interval.unit := by positivity
  rw [hscale, mul_le_mul_iff_left₀ hpos, mul_lt_mul_iff_left₀ hpos, Nat.cast_le, Nat.cast_lt]
  have htwo : twoTo 52 = 2 ^ 52 := rfl
  simp only [interval, htwo, decide_eq_true_eq]
  rcases h with h | ⟨h, hlt⟩
  · have hpow : 2 ≤ 2 ^ d := by
      calc 2 = 2 ^ 1 := rfl
        _ ≤ 2 ^ d := Nat.pow_le_pow_right (by decide) (by omega)
    have hmantissa : 2 ^ 52 ≤ y.mantissa := by omega
    have hlower : 2 ^ 54 - 1 ≤ 4 * y.mantissa
        - (if y.mantissa = 2 ^ 52 ∧ -1074 < y.exponent then 1 else 2) := by
      split_ifs <;> omega
    have hproduct := Nat.mul_le_mul hlower hpow
    constructor
    · omega
    · intro _ _
      omega
  · obtain rfl : d = 0 := by omega
    rw [pow_zero, Nat.mul_one]
    constructor
    · split_ifs <;> omega
    · intro _ _
      split_ifs <;> omega

theorem not_contains_both (hx : x.IsDouble) (hy : y.IsDouble)
    (h : x.exponent < y.exponent ∨ x.exponent = y.exponent ∧ x.mantissa < y.mantissa) {v : ℚ}
    (hxv : x.interval.Contains v) : ¬ y.interval.Contains v := by
  intro hyv
  obtain ⟨hle, hlt⟩ := upper_le_lower hx hy h
  cases hxclosed : x.interval.closed with
  | false => exact absurd (((hxv.lt hxclosed).2.trans_le hle).trans_le hyv.le.1) (lt_irrefl v)
  | true =>
    cases hyclosed : y.interval.closed with
    | false => exact absurd ((hxv.le.2.trans hle).trans_lt (hyv.lt hyclosed).1) (lt_irrefl v)
    | true =>
      exact absurd ((hxv.le.2.trans_lt (hlt hxclosed hyclosed)).trans_le hyv.le.1) (lt_irrefl v)

/-- No number is in the intervals of two numbers of the format. -/
theorem eq_of_contains (hx : x.IsDouble) (hy : y.IsDouble) {v : ℚ} (hxv : x.interval.Contains v)
    (hyv : y.interval.Contains v) : x = y := by
  have hnlt := mt (fun h => not_contains_both hx hy h hxv) (not_not.mpr hyv)
  have hngt := mt (fun h => not_contains_both hy hx h hyv) (not_not.mpr hxv)
  obtain ⟨m, e⟩ := x
  obtain ⟨m', e'⟩ := y
  simp only [not_or, not_and, not_lt] at hnlt hngt
  obtain rfl : e = e' := by omega
  obtain rfl : m = m' := le_antisymm (hngt.2 rfl) (hnlt.2 rfl)
  rfl

theorem lower_lt_centre (h : 0 < x.mantissa) : x.interval.lower < x.interval.centre := by
  simp only [interval]
  split_ifs <;> omega

theorem centre_lt_upper : x.interval.centre < x.interval.upper := by
  simp only [interval]
  omega

/-! ## The search -/

/-- A power of ten is below the power of two whose digits it is counted by, with some room. -/
theorem ten_zpow_le {b q : ℤ} (hq : q = b * 30103 / 100000) (hlow : -1073 ≤ b) (hhigh : b ≤ 1025) :
    (10 : ℚ) ^ q ≤ 2 ^ (b + 17) := by
  rcases le_total 0 q with hsign | hsign
  · -- `10 ^ 8` is at most `2 ^ 27`.
    obtain ⟨n, rfl⟩ := Int.eq_ofNat_of_zero_le hsign
    obtain ⟨c, hc⟩ := Int.eq_ofNat_of_zero_le (by omega : 0 ≤ b + 17)
    rw [hc]
    simp only [zpow_natCast]
    refine (pow_le_pow_iff_left₀ (by positivity) (by positivity) (by decide : 8 ≠ 0)).mp ?_
    calc ((10 : ℚ) ^ n) ^ 8 = ((10 : ℚ) ^ 8) ^ n := pow_right_comm _ _ _
      _ ≤ ((2 : ℚ) ^ 27) ^ n := pow_le_pow_left₀ (by norm_num) (by norm_num) n
      _ = (2 : ℚ) ^ (27 * n) := (pow_mul _ _ _).symm
      _ ≤ (2 : ℚ) ^ (c * 8) := pow_le_pow_right₀ (by norm_num) (by omega)
      _ = ((2 : ℚ) ^ c) ^ 8 := pow_mul _ _ _
  · -- `10 ^ 7` is at least `2 ^ 23`.
    obtain ⟨n, hn⟩ := Int.eq_ofNat_of_zero_le (by omega : 0 ≤ -q)
    obtain rfl : q = -n := by omega
    have hpow : (2 : ℚ) ^ (23 * n) ≤ ((10 : ℚ) ^ n) ^ 7 := by
      calc (2 : ℚ) ^ (23 * n) = ((2 : ℚ) ^ 23) ^ n := pow_mul _ _ _
        _ ≤ ((10 : ℚ) ^ 7) ^ n := pow_le_pow_left₀ (by norm_num) (by norm_num) n
        _ = ((10 : ℚ) ^ n) ^ 7 := pow_right_comm _ _ _
    rcases le_total 0 (b + 17) with hb | hb
    · calc (10 : ℚ) ^ (-n : ℤ) ≤ 1 := zpow_le_one_of_nonpos₀ (by norm_num) (by omega)
        _ ≤ 2 ^ (b + 17) := one_le_zpow₀ (by norm_num) hb
    · obtain ⟨c, hc⟩ := Int.eq_ofNat_of_zero_le (by omega : 0 ≤ -(b + 17))
      obtain hb' : b + 17 = -c := by omega
      rw [hb', zpow_neg, zpow_neg, inv_le_inv₀ (by positivity) (by positivity)]
      simp only [zpow_natCast]
      refine (pow_le_pow_iff_left₀ (by positivity) (by positivity) (by decide : 7 ≠ 0)).mp ?_
      calc ((2 : ℚ) ^ c) ^ 7 = (2 : ℚ) ^ (c * 7) := (pow_mul _ _ _).symm
        _ ≤ (2 : ℚ) ^ (23 * n) := pow_le_pow_right₀ (by norm_num) (by omega)
        _ ≤ ((10 : ℚ) ^ n) ^ 7 := hpow

/-- The decimal with the fewest digits rounds to the number. -/
theorem contains_shortest (tie : Tie) (hx : x.IsDouble) (h : 0 < x.mantissa) :
    x.interval.Contains ((x.shortest tie).digits * 10 ^ (x.shortest tie).exponent) := by
  refine RoundingInterval.contains_search ⟨23, by decide,
    RoundingInterval.point?_ne_none (lower_lt_centre h) centre_lt_upper ?_⟩
  obtain ⟨hlt, hlow, hhigh, -⟩ := hx
  have hlog : x.mantissa.log2 < 53 := (Nat.log2_lt (by omega)).mpr hlt
  set b : ℤ := x.mantissa.log2 + 1 + x.exponent with hb
  have hten := ten_zpow_le (b := b) rfl (by omega) (by omega)
  have hroom : (10 : ℚ) ^ (b * 30103 / 100000 - 22) ≤ 2 ^ (b - 56) := by
    have hconst : (2 : ℚ) ^ 73 ≤ 10 ^ 22 := by norm_num
    calc (10 : ℚ) ^ (b * 30103 / 100000 - 22) = 10 ^ (b * 30103 / 100000) / 10 ^ 22 := by
          rw [zpow_sub₀ (by norm_num)]
          rfl
      _ ≤ 2 ^ (b + 17) / 2 ^ 73 := div_le_div₀ (by positivity) hten (by positivity) hconst
      _ = 2 ^ (b - 56) := by
          rw [show b - 56 = b + 17 - 73 by ring, zpow_sub₀ (by norm_num)]
          rfl
  calc (10 : ℚ) ^ (b * 30103 / 100000 + 1 - (23 : ℕ)) = 10 ^ (b * 30103 / 100000 - 22) := by
        congr 1
        push_cast
        ring
    _ ≤ 2 ^ (b - 56) := hroom
    _ ≤ 2 ^ x.interval.unit := by
        refine zpow_le_zpow_right₀ (by norm_num) ?_
        simp only [interval]
        omega

end BinaryNumber

end QueryCompiler
