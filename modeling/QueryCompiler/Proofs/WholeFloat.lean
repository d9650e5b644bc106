import Mathlib
import QueryCompiler.Decimal.Number

/-!
# Integers beyond a word

An integer that a document writes and no signed word holds is still below `2 ^ 64`. The float
nearest to it is a number (`isFinite_floatOfInt`): its mantissa has 53 digits and its exponent is 11
or 12. The negative of a number is a number too (`isFinite_neg`).
-/

namespace QueryCompiler

open Float.Model Float.Model.UnpackedFloat

/-- Bits that do not have every bit of the exponent set stand for a number. -/
theorem isFinite_unpack {b : BitVec Format.binary64.numBits} (h : unpackExponent b ≠ (-1#_)) :
    (UnpackedFloat.unpack Format.binary64 b).isFinite = true := by
  unfold UnpackedFloat.unpack
  simp only [if_neg h]
  split_ifs <;> rfl

theorem unpackExponent_pack_unpack {b : BitVec Format.binary64.numBits}
    (h : unpackExponent b ≠ (-1#_)) :
    unpackExponent (UnpackedFloat.pack Format.binary64 (UnpackedFloat.unpack Format.binary64 b))
      ≠ (-1#_) := by
  have hlt : (unpackExponent b).toNat < 2047 := by
    have hwidth : (unpackExponent b).toNat < 2048 := (unpackExponent b).isLt
    have hne : (unpackExponent b).toNat ≠ 2047 := fun heq => h (BitVec.eq_of_toNat_eq heq)
    omega
  have hbias : Format.binary64.exponentBias = 1023 := rfl
  unfold UnpackedFloat.unpack
  simp only [if_neg h]
  split_ifs with hzero hmantissa
  · rw [UnpackedFloat.pack, packedZero, unpackExponent_packComponents]
    decide
  · have hexponent : ((unpackExponent b).toNat - ((1023 : ℕ) + (52 : ℕ) : ℤ) + 1
        + (1023 : ℕ) + (52 : ℕ)).toNat = 1 := by
      rw [hzero]
      rfl
    rw [UnpackedFloat.pack]
    simp only [hbias, hexponent]
    rw [if_neg (by decide)]
    split_ifs
    · rw [unpackExponent_packComponents]
      decide
    · rw [unpackExponent_packComponents]
      decide
  · have hexponent : ((unpackExponent b).toNat - ((1023 : ℕ) + (52 : ℕ) : ℤ)
        + (1023 : ℕ) + (52 : ℕ)).toNat = (unpackExponent b).toNat := by
      omega
    rw [UnpackedFloat.pack]
    simp only [hbias, hexponent]
    rw [if_neg (by omega)]
    split_ifs
    · rw [unpackExponent_packComponents, BitVec.ofNat_toNat, BitVec.setWidth_eq]
      exact h
    · rw [unpackExponent_packComponents]
      decide

theorem unpackExponent_ne_of_isFinite {b : BitVec Format.binary64.numBits}
    (h : (UnpackedFloat.unpack Format.binary64 b).isFinite = true) : unpackExponent b ≠ (-1#_) := by
  intro heq
  unfold UnpackedFloat.unpack at h
  simp only [if_pos heq] at h
  split_ifs at h <;> cases h

/-- The exponent is the same whatever the sign is. -/
theorem unpackExponent_pack_neg (u : UnpackedFloat) :
    unpackExponent (UnpackedFloat.pack Format.binary64 u.neg)
      = unpackExponent (UnpackedFloat.pack Format.binary64 u) := by
  cases u with
  | notANumber => rfl
  | infinity s =>
    simp only [UnpackedFloat.neg, UnpackedFloat.pack, packedInfinity, unpackExponent_packComponents]
  | zero s => simp only [UnpackedFloat.neg, UnpackedFloat.pack, packedZero, unpackExponent_packComponents]
  | finite s m e hm =>
    simp only [UnpackedFloat.neg, UnpackedFloat.pack]
    split_ifs <;> simp only [packedInfinity, unpackExponent_packComponents]

theorem isFinite_neg {x : Float} (h : x.isFinite = true) : (-x).isFinite = true := by
  refine isFinite_unpack ?_
  change unpackExponent (UnpackedFloat.pack Format.binary64
    (UnpackedFloat.unpack Format.binary64 x.toModel.toBits.toBitVec).neg) ≠ (-1#_)
  rw [unpackExponent_pack_neg]
  exact unpackExponent_pack_unpack (unpackExponent_ne_of_isFinite h)
theorem isFinite_ofBits {bits : ℕ} (hbits : bits < 2047 * 2 ^ 52) :
    (Float.ofBits (UInt64.ofNat bits)).isFinite = true := by
  refine isFinite_unpack (unpackExponent_pack_unpack fun heq => ?_)
  have hnat := congrArg BitVec.toNat heq
  simp [unpackExponent] at hnat
  omega

theorem divNearest_le (num den : ℕ) : divNearest num den ≤ num / den + 1 := by
  unfold divNearest
  simp only
  split_ifs <;> omega

/-- The exponent is one of two, whichever way the mantissa is rounded. -/
theorem nearest?_of_word {n : ℕ} (hlow : 2 ^ 63 ≤ n) (hhigh : n < 2 ^ 64) :
    ∃ x, BinaryFormat.double.nearest? n 1 = some x ∧ x.bits < 2047 * 2 ^ 52 := by
  have htwo : ∀ k, twoTo k = 2 ^ k := fun _ => rfl
  have hlog : n.log2 = 63 := by
    have hlt : n.log2 < 64 := (Nat.log2_lt (by omega)).mpr hhigh
    have hle : 63 ≤ n.log2 := (Nat.le_log2 (by omega)).mpr hlow
    omega
  have hcoarse : max (-1074 : ℤ) ((n.log2 : ℤ) - (1 : ℕ).log2 - (53 : ℕ)) = 10 := by
    rw [hlog]
    decide
  have hlarge : twoTo 53 ≤ n * twoTo (-10 : ℤ).toNat / (1 * twoTo (10 : ℤ).toNat) := by
    simp only [htwo, show (-10 : ℤ).toNat = 0 from rfl, show (10 : ℤ).toNat = 10 from rfl]
    omega
  have hm := divNearest_le (n * twoTo (-(10 + 1) : ℤ).toNat) (1 * twoTo (10 + 1 : ℤ).toNat)
  have hquotient : n * twoTo (-(10 + 1) : ℤ).toNat / (1 * twoTo (10 + 1 : ℤ).toNat) < 2 ^ 53 := by
    simp only [htwo, show (-(10 + 1) : ℤ).toNat = 0 from rfl, show (10 + 1 : ℤ).toNat = 11 from rfl]
    omega
  unfold BinaryFormat.nearest?
  simp only [BinaryFormat.double, hcoarse, scaleDown, if_pos hlarge]
  generalize divNearest (n * twoTo (-(10 + 1) : ℤ).toNat) (1 * twoTo (10 + 1 : ℤ).toNat) = m at hm ⊢
  split_ifs with hround hsmall hlast
  · cases hsmall
  · refine ⟨_, rfl, ?_⟩
    rw [hround]
    decide
  · cases hlast
  · refine ⟨_, rfl, ?_⟩
    simp only [BinaryNumber.bits, htwo] at hround ⊢
    split_ifs
    · omega
    · simp only [show ((10 : ℤ) + 1 + 1075).toNat = 1086 from rfl]
      omega

theorem isFinite_floatOfInt {n : ℤ} (hlow : 2 ^ 63 ≤ n) (hhigh : n < 2 ^ 64) :
    (floatOfInt n).isFinite = true := by
  obtain ⟨k, rfl⟩ := Int.eq_ofNat_of_zero_le (by omega : 0 ≤ n)
  obtain ⟨x, hx, hbits⟩ := nearest?_of_word (n := k) (by omega) (by omega)
  have hmagnitude : Decimal.magnitude? .double ⟨false, k, 0⟩ = some x := by
    have hlength : (Nat.toDigits 10 k).length ≤ 20 :=
      (Nat.length_toDigits_le_iff (by decide) (by decide)).mpr (by omega)
    unfold Decimal.magnitude?
    simp only
    rw [if_neg (by omega), if_neg (by omega), Int.neg_zero, Int.toNat_zero, tenTo_zero, Nat.mul_one]
    exact hx
  have hpositive : decide ((k : ℤ) < 0) = false := decide_eq_false (by omega)
  rw [floatOfInt, Decimal.toFloat, hpositive, Int.natAbs_natCast, hmagnitude]
  rw [Option.map_some, Option.getD_some, floatOfBits, if_neg Bool.false_ne_true]
  exact isFinite_ofBits hbits

end QueryCompiler
