import DecisionTree.Decimal.Shortest
import Mathlib.Tactic.Ring

/-!
How doubles are encoded: a sign, an exponent field and a fraction, one above the other in the bits.
Below the sign the bits count the doubles from zero up, so that the finite ones have less than
infinity. Taking the bits apart and putting them together again gives the same double.
-/

namespace DecisionTree

open Decimal (infinityBits)

namespace Dyadic

theorem ofMagnitude_of_lt {bits : ℕ} (small : bits < 2 ^ 52) :
    ofMagnitude bits = ⟨bits, -1074, false⟩ := by
  unfold ofMagnitude
  simp only [Nat.pow_eq]
  rw [if_pos (Nat.div_eq_of_lt small), Nat.mod_eq_of_lt small]

private theorem ofMagnitude_of_le {bits : ℕ} (large : 2 ^ 52 ≤ bits) :
    ofMagnitude bits =
      ⟨2 ^ 52 + bits % 2 ^ 52, (bits / 2 ^ 52 : ℕ) - 1075,
        bits % 2 ^ 52 = 0 && bits / 2 ^ 52 > 1⟩ := by
  unfold ofMagnitude
  simp only [Nat.pow_eq]
  rw [if_neg (by omega)]

/-- The mantissa has 53 binary digits, or fewer at the least exponent. -/
structure Canonical (x : Dyadic) : Prop where
  bound : -1074 ≤ x.exponent
  small : x.mantissa < 2 ^ 53
  normal : x.exponent = -1074 ∨ 2 ^ 52 ≤ x.mantissa
  narrow : x.narrow = true ↔ x.mantissa = 2 ^ 52 ∧ -1074 < x.exponent

theorem canonical_ofMagnitude (bits : ℕ) : (ofMagnitude bits).Canonical := by
  have small : bits % 2 ^ 52 < 2 ^ 52 := Nat.mod_lt _ (by norm_num)
  unfold ofMagnitude
  simp only [Nat.pow_eq]
  split
  next subnormal =>
    refine ⟨le_rfl, ?_, .inl rfl, ?_⟩
    · dsimp only
      omega
    · simp
  next normal =>
    refine ⟨?_, ?_, .inr ?_, ?_⟩
    · dsimp only
      omega
    · dsimp only
      omega
    · dsimp only
      omega
    · simp only [Bool.and_eq_true, decide_eq_true_eq]
      omega

/-- The bits are made of the exponent and the mantissa. -/
theorem bits_eq (bits : ℕ) :
    bits = ((ofMagnitude bits).exponent + 1074).toNat * 2 ^ 52 + (ofMagnitude bits).mantissa := by
  have split := Nat.div_add_mod bits (2 ^ 52)
  unfold ofMagnitude
  simp only [Nat.pow_eq]
  split <;> dsimp only <;> omega

theorem mantissa_pos_of_magnitude {bits : ℕ} (some : 0 < bits) :
    0 < (ofMagnitude bits).mantissa := by
  have normal := (canonical_ofMagnitude bits).normal
  have whole := bits_eq bits
  rcases normal with least | normal
  · rw [least] at whole
    omega
  · omega

/-- The exponent decides before the mantissa, as it does in the bits. -/
theorem compare_ofMagnitude (first second : ℕ) :
    (compare (ofMagnitude first).exponent (ofMagnitude second).exponent).then
        (compare (ofMagnitude first).mantissa (ofMagnitude second).mantissa) =
      compare first second := by
  have bits := bits_eq first
  have bits' := bits_eq second
  obtain ⟨bound, small, normal, -⟩ := canonical_ofMagnitude first
  obtain ⟨bound', small', normal', -⟩ := canonical_ofMagnitude second
  generalize ofMagnitude first = x at *
  generalize ofMagnitude second = y at *
  rcases lt_trichotomy x.exponent y.exponent with less | same | greater
  · rw [compare_lt_iff_lt.mpr less, compare_lt_iff_lt.mpr (by omega : first < second)]
    rfl
  · rw [compare_eq_iff_eq.mpr same, Ordering.eq_then]
    rcases lt_trichotomy x.mantissa y.mantissa with less | equal | greater
    · rw [compare_lt_iff_lt.mpr less, compare_lt_iff_lt.mpr (by omega : first < second)]
    · rw [compare_eq_iff_eq.mpr equal, compare_eq_iff_eq.mpr (by omega : first = second)]
    · rw [compare_gt_iff_gt.mpr greater, compare_gt_iff_gt.mpr (by omega : second < first)]
  · rw [compare_gt_iff_gt.mpr greater, compare_gt_iff_gt.mpr (by omega : second < first)]
    rfl

end Dyadic

namespace Encoding

open Float.Model (UnpackedFloat Format)
open Float.Model.UnpackedFloat (Sign pack unpack packComponents unpackSign unpackExponent
  unpackMantissa)

abbrev double : Format :=
  Format.binary64

variable {sign : Sign} {field : BitVec 11} {fraction : BitVec 52} {bits : BitVec 64}

theorem toNat_packComponents :
    (packComponents double sign field fraction).toNat =
      sign.toBitVec.toNat * 2 ^ 63 + field.toNat * 2 ^ 52 + fraction.toNat := by
  unfold packComponents
  rw [BitVec.toNat_append, BitVec.toNat_append, ← Nat.shiftLeft_add_eq_or_of_lt fraction.isLt,
    ← Nat.shiftLeft_add_eq_or_of_lt field.isLt]
  simp only [Nat.shiftLeft_eq]
  ring

theorem toNat_unpackExponent :
    (@unpackExponent double bits).toNat = bits.toNat / 2 ^ 52 % 2 ^ 11 := by
  simp [unpackExponent, Nat.shiftRight_eq_div_pow]

theorem toNat_unpackMantissa :
    (@unpackMantissa double bits).toNat = bits.toNat % 2 ^ 52 := by
  simp [unpackMantissa]

/-- The sign of the bits. -/
def signOf (bits : BitVec 64) : Sign :=
  Sign.ofBitVec (@unpackSign double bits)

theorem toNat_signOf : (signOf bits).toBitVec.toNat = bits.toNat / 2 ^ 63 := by
  have inverse (bit : BitVec 1) : (Sign.ofBitVec bit).toBitVec = bit := by
    revert bit
    decide
  have bound := bits.isLt
  rw [signOf, inverse]
  unfold unpackSign
  simp only [BitVec.toNat_cast, BitVec.extractLsb_toNat, Nat.shiftRight_eq_div_pow]
  omega

theorem signOf_of_lt (small : bits.toNat < 2 ^ 63) : signOf bits = .positive := by
  have bit : (signOf bits).toBitVec.toNat = 0 := by
    rw [toNat_signOf]
    omega
  cases sign : signOf bits with
  | positive => rfl
  | negative =>
    rw [sign] at bit
    cases bit

theorem unpackExponent_eq_top_iff :
    @unpackExponent double bits = -1#11 ↔ bits.toNat / 2 ^ 52 % 2 ^ 11 = 2047 := by
  rw [← BitVec.toNat_inj, toNat_unpackExponent]
  rfl

theorem unpackExponent_eq_zero_iff :
    @unpackExponent double bits = 0#11 ↔ bits.toNat / 2 ^ 52 % 2 ^ 11 = 0 := by
  rw [← BitVec.toNat_inj, toNat_unpackExponent]
  rfl

theorem unpackMantissa_eq_zero_iff :
    @unpackMantissa double bits = 0#52 ↔ bits.toNat % 2 ^ 52 = 0 := by
  rw [← BitVec.toNat_inj, toNat_unpackMantissa]
  rfl

theorem finite_congr {sign other : Sign} {mantissa mantissa' : ℕ} {exponent exponent' : ℤ}
    {some : 0 < mantissa} {some' : 0 < mantissa'} (signs : sign = other)
    (mantissas : mantissa = mantissa') (exponents : exponent = exponent') :
    UnpackedFloat.finite sign mantissa exponent some = .finite other mantissa' exponent' some' := by
  subst signs mantissas exponents
  rfl

theorem unpack_of_zero (zero : bits.toNat % 2 ^ 63 = 0) :
    unpack double bits = .zero (signOf bits) := by
  unfold unpack
  rw [if_neg (mt unpackExponent_eq_top_iff.mp (by omega)),
    if_pos (unpackExponent_eq_zero_iff.mpr (by omega)),
    dif_pos (unpackMantissa_eq_zero_iff.mpr (by omega))]
  rfl

theorem unpack_of_infinite (infinite : bits.toNat % 2 ^ 63 = infinityBits) :
    unpack double bits = .infinity (signOf bits) := by
  unfold infinityBits at infinite
  unfold unpack
  rw [if_pos (unpackExponent_eq_top_iff.mpr (by omega)),
    if_pos (unpackMantissa_eq_zero_iff.mpr (by omega))]
  rfl

theorem unpack_of_greater (greater : infinityBits < bits.toNat % 2 ^ 63) :
    unpack double bits = .notANumber := by
  unfold infinityBits at greater
  unfold unpack
  rw [if_pos (unpackExponent_eq_top_iff.mpr (by omega)),
    if_neg (mt unpackMantissa_eq_zero_iff.mp (by omega))]

theorem unpack_of_finite (some : 0 < bits.toNat % 2 ^ 63)
    (finite : bits.toNat % 2 ^ 63 < infinityBits) :
    unpack double bits = .finite (signOf bits) (Dyadic.ofMagnitude (bits.toNat % 2 ^ 63)).mantissa
      (Dyadic.ofMagnitude (bits.toNat % 2 ^ 63)).exponent
      (Dyadic.mantissa_pos_of_magnitude some) := by
  unfold infinityBits at finite
  have bias : double.exponentBias = 1023 := rfl
  unfold unpack
  rw [if_neg (mt unpackExponent_eq_top_iff.mp (by omega))]
  by_cases subnormal : bits.toNat / 2 ^ 52 % 2 ^ 11 = 0
  · have small : bits.toNat % 2 ^ 63 < 2 ^ 52 := by omega
    rw [if_pos (unpackExponent_eq_zero_iff.mpr subnormal),
      dif_neg (mt unpackMantissa_eq_zero_iff.mp (by omega))]
    refine finite_congr rfl ?_ ?_
    · rw [Dyadic.ofMagnitude_of_lt small, toNat_unpackMantissa]
      dsimp only
      omega
    · rw [Dyadic.ofMagnitude_of_lt small, toNat_unpackExponent, subnormal, bias]
      rfl
  · have large : 2 ^ 52 ≤ bits.toNat % 2 ^ 63 := by omega
    rw [if_neg (mt unpackExponent_eq_zero_iff.mp subnormal)]
    refine finite_congr rfl ?_ ?_
    · rw [Dyadic.ofMagnitude_of_le large, BitVec.toNat_append,
        ← Nat.shiftLeft_add_eq_or_of_lt (BitVec.isLt _), toNat_unpackMantissa]
      simp only [Nat.shiftLeft_eq]
      change 1 * 2 ^ 52 + _ = 2 ^ 52 + _
      omega
    · rw [Dyadic.ofMagnitude_of_le large, toNat_unpackExponent, bias]
      change ((bits.toNat / 2 ^ 52 % 2 ^ 11 : ℕ) : ℤ) - (1023 + 52 : ℕ) = _
      dsimp only
      omega

/-- Below the sign the bits tell the finite doubles, infinity and what is not a number. -/
theorem status_unpack (bits : BitVec 64) :
    ((unpack double bits).isFinite = true ↔ bits.toNat % 2 ^ 63 < infinityBits) ∧
      ((unpack double bits).isInf = true ↔ bits.toNat % 2 ^ 63 = infinityBits) ∧
      ((unpack double bits).isNaN = true ↔ infinityBits < bits.toNat % 2 ^ 63) := by
  rcases Nat.lt_trichotomy (bits.toNat % 2 ^ 63) infinityBits with finite | infinite | greater
  · have status : (unpack double bits).isFinite = true ∧ (unpack double bits).isInf = false ∧
        (unpack double bits).isNaN = false := by
      rcases Nat.eq_zero_or_pos (bits.toNat % 2 ^ 63) with zero | some
      · rw [unpack_of_zero zero]
        exact ⟨rfl, rfl, rfl⟩
      · rw [unpack_of_finite some finite]
        exact ⟨rfl, rfl, rfl⟩
    rw [status.1, status.2.1, status.2.2]
    exact ⟨iff_of_true rfl finite, iff_of_false Bool.false_ne_true finite.ne,
      iff_of_false Bool.false_ne_true finite.not_gt⟩
  · rw [unpack_of_infinite infinite]
    exact ⟨iff_of_false Bool.false_ne_true infinite.ge.not_gt, iff_of_true rfl infinite,
      iff_of_false Bool.false_ne_true infinite.le.not_gt⟩
  · rw [unpack_of_greater greater]
    exact ⟨iff_of_false Bool.false_ne_true greater.not_gt,
      iff_of_false Bool.false_ne_true greater.ne', iff_of_true rfl greater⟩

theorem toNat_packedInfinity :
    (Float.Model.UnpackedFloat.packedInfinity double sign).toNat =
      sign.toBitVec.toNat * 2 ^ 63 + infinityBits := by
  have top : (-1#11).toNat = 2047 := by decide
  change (packComponents double sign (-1#11) 0#52).toNat = _
  rw [toNat_packComponents, top]
  unfold infinityBits
  simp only [BitVec.toNat_ofNat]
  omega

theorem toNat_pack_zero : (pack double (.zero sign)).toNat = sign.toBitVec.toNat * 2 ^ 63 := by
  change (packComponents double sign 0#11 0#52).toNat = _
  rw [toNat_packComponents]
  simp only [BitVec.toNat_ofNat]
  omega

/-- Past the finite doubles packing ends at infinity. -/
theorem toNat_pack_finite {mantissa : ℕ} {exponent : ℤ} {some : 0 < mantissa}
    (bound : -1074 ≤ exponent) (small : mantissa < 2 ^ 53)
    (normal : exponent = -1074 ∨ 2 ^ 52 ≤ mantissa) :
    (pack double (.finite sign mantissa exponent some)).toNat =
      sign.toBitVec.toNat * 2 ^ 63 +
        min infinityBits ((exponent + 1074).toNat * 2 ^ 52 + mantissa) := by
  have biased : (exponent + (double.exponentBias : ℕ) +
      (double.mantissaBitsWithoutImplicit : ℕ)).toNat = (exponent + 1075).toNat := by
    change (exponent + 1023 + 52).toNat = _
    omega
  have digits : mantissa.log2 + 1 = double.mantissaBits ↔ 2 ^ 52 ≤ mantissa := by
    change mantissa.log2 + 1 = 53 ↔ _
    have low := Nat.le_log2 (n := mantissa) (k := 52) some.ne'
    have high := Nat.log2_lt (n := mantissa) (k := 53) some.ne'
    omega
  unfold pack
  dsimp only
  rw [biased]
  split
  next overflow =>
    have large : 2 ^ 11 ≤ (exponent + 1075).toNat + 1 := overflow
    rw [toNat_packedInfinity, min_eq_left]
    unfold infinityBits
    omega
  next inRange =>
    have less : ¬2 ^ 11 ≤ (exponent + 1075).toNat + 1 := inRange
    rw [min_eq_right (by unfold infinityBits; omega)]
    split
    next full =>
      have full := digits.mp full
      rw [toNat_packComponents]
      simp only [BitVec.toNat_ofNat]
      change _ * 2 ^ 63 + (exponent + 1075).toNat % 2 ^ 11 * 2 ^ 52 + mantissa % 2 ^ 52 = _
      omega
    next short =>
      have short := mt digits.mpr short
      rw [toNat_packComponents]
      simp only [BitVec.toNat_ofNat]
      change _ * 2 ^ 63 + 0 * 2 ^ 52 + mantissa % 2 ^ 52 = _
      omega

/-- Nothing is lost in taking the bits of a number apart. -/
theorem pack_unpack_of_number (number : bits.toNat % 2 ^ 63 ≤ infinityBits) :
    pack double (unpack double bits) = bits := by
  have whole : bits.toNat = (signOf bits).toBitVec.toNat * 2 ^ 63 + bits.toNat % 2 ^ 63 := by
    rw [toNat_signOf]
    omega
  apply BitVec.eq_of_toNat_eq
  rcases number.lt_or_eq with finite | infinite
  · rcases Nat.eq_zero_or_pos (bits.toNat % 2 ^ 63) with zero | some
    · rw [unpack_of_zero zero, toNat_pack_zero]
      omega
    · have canonical := Dyadic.canonical_ofMagnitude (bits.toNat % 2 ^ 63)
      rw [unpack_of_finite some finite,
        toNat_pack_finite canonical.bound canonical.small canonical.normal, ← Dyadic.bits_eq,
        min_eq_right finite.le]
      exact whole.symm
  · rw [unpack_of_infinite infinite]
    change (Float.Model.UnpackedFloat.packedInfinity double _).toNat = _
    rw [toNat_packedInfinity]
    omega

/-- Nothing is lost in taking valid bits apart. -/
theorem pack_unpack (valid : double.Valid bits) : pack double (unpack double bits) = bits := by
  rcases Nat.lt_or_ge infinityBits (bits.toNat % 2 ^ 63) with greater | number
  · unfold infinityBits at greater
    rw [unpack_of_greater greater]
    refine (valid.eq_packedNaN (unpackExponent_eq_top_iff.mpr (by omega)) ?_).symm
    exact mt unpackMantissa_eq_zero_iff.mp (by omega)
  · exact pack_unpack_of_number number

end Encoding

namespace Number

open Encoding
open Float.Model.UnpackedFloat (pack unpack)

variable {x : Float}

/-- A double is what its bits encode. -/
theorem ofBits_toBits (x : Float) : Float.ofBits x.toBits = x := by
  obtain ⟨⟨bits, valid⟩⟩ := x
  change Float.ofModel (.ofBits bits) = _
  congr 1
  unfold Float.Model.ofBits Float.Model.pack
  congr 1
  exact congrArg UInt64.ofBitVec (pack_unpack valid)

/-- The finite doubles are those below infinity. -/
theorem isFinite_iff : x.isFinite = true ↔ Dyadic.magnitude x < infinityBits :=
  (status_unpack x.toBits.toBitVec).1

theorem isInf_iff : x.isInf = true ↔ Dyadic.magnitude x = infinityBits :=
  (status_unpack x.toBits.toBitVec).2.1

theorem isNaN_iff : x.isNaN = true ↔ infinityBits < Dyadic.magnitude x :=
  (status_unpack x.toBits.toBitVec).2.2

theorem floatOfBits_magnitude (x : Float) :
    Decimal.floatOfBits (decide (x.toBits.toNat ≥ Nat.pow 2 63)) (Dyadic.magnitude x) = x := by
  have bound := x.toBits.toBitVec.isLt
  have whole : Dyadic.magnitude x +
      (if decide (x.toBits.toNat ≥ Nat.pow 2 63) then Nat.pow 2 63 else 0) = x.toBits.toNat := by
    unfold Dyadic.magnitude
    simp only [Nat.pow_eq, decide_eq_true_eq]
    change x.toBits.toNat < 2 ^ 64 at bound
    split <;> omega
  unfold Decimal.floatOfBits
  rw [whole, UInt64.ofNat_toNat, ofBits_toBits]

end Number
end DecisionTree
