import DecisionTree.Proofs.Number.Amount

namespace DecisionTree.Number

open Decimal (infinityBits)
open DecisionTree.Dyadic (magnitude)
open Encoding
open Float.Model (UnpackedFloat)

variable {a b x : Float}

/-- The rational number that a finite double stands for. -/
def exactValue (x : Float) : ℚ :=
  match signOf (bitsOf x) with
  | .positive => worth x
  | .negative => -worth x

theorem worth_of_zero (zero : magnitude x = 0) : worth x = 0 := by
  unfold worth
  rw [zero, Dyadic.ofMagnitude_of_lt (by norm_num)]
  simp [Dyadic.value]

private theorem worth_lt (less : magnitude a < magnitude b) (finite : magnitude b < infinityBits) :
    worth a < worth b := by
  rcases Nat.eq_zero_or_pos (magnitude a) with zero | some
  · rw [worth_of_zero zero]
    exact worth_pos (zero ▸ less)
  · refine lt_of_le_of_ne (worth_mono some finite less.le) fun same => ?_
    -- both would be the double that one rational is rounded to
    have rounds := roundsTo_worth some (less.trans finite)
    rw [same] at rounds
    exact less.ne (rounds.unique (roundsTo_worth (some.trans less) finite))

theorem compare_worth (first : magnitude a < infinityBits) (second : magnitude b < infinityBits) :
    compare (magnitude a) (magnitude b) = compare (worth a) (worth b) := by
  rcases lt_trichotomy (magnitude a) (magnitude b) with less | same | greater
  · rw [compare_lt_iff_lt.mpr less, compare_lt_iff_lt.mpr (worth_lt less second)]
  · have worths : worth a = worth b := congrArg (fun bits => (Dyadic.ofMagnitude bits).value) same
    rw [compare_eq_iff_eq.mpr same, compare_eq_iff_eq.mpr worths]
  · rw [compare_gt_iff_gt.mpr greater, compare_gt_iff_gt.mpr (worth_lt greater first)]

theorem compare_neg (p q : ℚ) : compare (-p) (-q) = (compare p q).swap := by
  rcases lt_trichotomy p q with less | rfl | greater
  · rw [compare_lt_iff_lt.mpr less, compare_gt_iff_gt.mpr (neg_lt_neg less)]
    rfl
  · rw [compare_eq_iff_eq.mpr rfl, compare_eq_iff_eq.mpr rfl]
    rfl
  · rw [compare_gt_iff_gt.mpr greater, compare_lt_iff_lt.mpr (neg_lt_neg greater)]
    rfl

theorem exactValue_of_positive (sign : signOf (bitsOf x) = .positive) : exactValue x = worth x := by
  rw [exactValue, sign]

theorem exactValue_of_negative (sign : signOf (bitsOf x) = .negative) :
    exactValue x = -worth x := by
  rw [exactValue, sign]

private theorem exactValue_of_zero (zero : magnitude x = 0) : exactValue x = 0 := by
  have none := worth_of_zero zero
  cases sign : signOf (bitsOf x) with
  | positive => rw [exactValue_of_positive sign, none]
  | negative => rw [exactValue_of_negative sign, none, neg_zero]

private theorem exactValue_pos (sign : signOf (bitsOf x) = .positive) (some : 0 < magnitude x) :
    0 < exactValue x := by
  rw [exactValue_of_positive sign]
  exact worth_pos some

private theorem exactValue_neg (sign : signOf (bitsOf x) = .negative) (some : 0 < magnitude x) :
    exactValue x < 0 := by
  rw [exactValue_of_negative sign]
  exact neg_lt_zero.mpr (worth_pos some)

private theorem unpack_eq_finite (some : 0 < magnitude x) (finite : magnitude x < infinityBits) :
    x.toModel.unpack = .finite (signOf (bitsOf x)) (Dyadic.ofMagnitude (magnitude x)).mantissa
      (Dyadic.ofMagnitude (magnitude x)).exponent (Dyadic.mantissa_pos_of_magnitude some) :=
  unpack_of_finite some finite

/-- Finite doubles compare as their exact values do. -/
theorem compare_exactValue (first : a.isFinite = true) (second : b.isFinite = true) :
    a.toModel.unpack.compare b.toModel.unpack = some (compare (exactValue a) (exactValue b)) := by
  rw [isFinite_iff] at first second
  rcases Nat.eq_zero_or_pos (magnitude a) with zero | some <;>
    rcases Nat.eq_zero_or_pos (magnitude b) with zero' | some'
  · rw [IsAmount.unpack_zero zero, IsAmount.unpack_zero zero', exactValue_of_zero zero,
      exactValue_of_zero zero']
    rfl
  · rw [IsAmount.unpack_zero zero, unpack_eq_finite some' second, exactValue_of_zero zero]
    cases sign : signOf (bitsOf b) with
    | positive =>
      rw [compare_lt_iff_lt.mpr (exactValue_pos sign some')]
      rfl
    | negative =>
      rw [compare_gt_iff_gt.mpr (exactValue_neg sign some')]
      rfl
  · rw [IsAmount.unpack_zero zero', unpack_eq_finite some first, exactValue_of_zero zero']
    cases sign : signOf (bitsOf a) with
    | positive =>
      rw [compare_gt_iff_gt.mpr (exactValue_pos sign some)]
      rfl
    | negative =>
      rw [compare_lt_iff_lt.mpr (exactValue_neg sign some)]
      rfl
  · have magnitudes := (Dyadic.compare_ofMagnitude ..).trans (compare_worth first second)
    rw [unpack_eq_finite some first, unpack_eq_finite some' second]
    cases sign : signOf (bitsOf a) <;> cases sign' : signOf (bitsOf b)
    case negative.negative =>
      rw [exactValue_of_negative sign, exactValue_of_negative sign', compare_neg]
      exact congrArg (fun order => Option.some order.swap) magnitudes
    case negative.positive =>
      have less := (exactValue_neg sign some).trans (exactValue_pos sign' some')
      rw [compare_lt_iff_lt.mpr less]
      rfl
    case positive.negative =>
      have greater := (exactValue_neg sign' some').trans (exactValue_pos sign some)
      rw [compare_gt_iff_gt.mpr greater]
      rfl
    case positive.positive =>
      rw [exactValue_of_positive sign, exactValue_of_positive sign']
      exact congrArg Option.some magnitudes

theorem lt_iff_exactValue (first : a.isFinite = true) (second : b.isFinite = true) :
    a < b ↔ exactValue a < exactValue b := by
  rw [lt_iff_compare, compare_exactValue first second, Option.some_inj, compare_lt_iff_lt]

theorem le_iff_exactValue (first : a.isFinite = true) (second : b.isFinite = true) :
    a ≤ b ↔ exactValue a ≤ exactValue b := by
  rw [← not_lt, ← lt_iff_exactValue second first, lt_iff_not_le second first, not_not]

theorem beq_iff_exactValue (first : a.isFinite = true) (second : b.isFinite = true) :
    (a == b) = true ↔ exactValue a = exactValue b := by
  change (a.toModel.unpack.compare b.toModel.unpack == some .eq) = true ↔ _
  rw [compare_exactValue first second, beq_iff_eq, Option.some_inj, compare_eq_iff_eq]

end DecisionTree.Number
