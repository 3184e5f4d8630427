import DecisionTree.Decimal.Nearest
import Mathlib.Algebra.Order.Field.Rat
import Mathlib.Algebra.Order.Field.Power
import Mathlib.Data.Int.Log
import Mathlib.Data.Rat.Floor
import Mathlib.Tactic.FieldSimp
import Mathlib.Tactic.Linarith
import Mathlib.Tactic.Positivity
import Mathlib.Tactic.Ring

/-!
Rounding to doubles, on exact values. The unit of a positive number is the distance of the doubles
around it; the number is rounded to the nearest multiple of its unit, of two to the even one. The
bits of the result grow with the number, also where a mantissa carries into the exponent and where
the range ends.
-/

namespace DecisionTree

/-- An integer that a number is rounded to: at most half away, and even if exactly half. -/
structure IsNearest (k : ℕ) (y : ℚ) : Prop where
  below : (k : ℚ) ≤ y + 1 / 2
  above : y ≤ k + 1 / 2
  tie : (k : ℚ) = y + 1 / 2 ∨ y = k + 1 / 2 → k % 2 = 0

namespace IsNearest

variable {k l : ℕ} {y z : ℚ}

theorem mono (first : IsNearest k y) (second : IsNearest l z) (ascending : y ≤ z) : k ≤ l := by
  by_contra less
  have next : (l : ℚ) + 1 ≤ k := by exact_mod_cast Nat.lt_of_not_le less
  have below := first.below
  have above := second.above
  -- only a tie between `l` and its successor is left, and one of them is odd
  have even := first.tie (.inl (by linarith))
  have odd := second.tie (.inr (by linarith))
  have adjacent : (k : ℚ) = l + 1 := by linarith
  have : k = l + 1 := by exact_mod_cast adjacent
  omega

theorem unique (first : IsNearest k y) (second : IsNearest l y) : k = l :=
  Nat.le_antisymm (first.mono second le_rfl) (second.mono first le_rfl)

theorem down {part : ℚ} (nonneg : 0 ≤ part) (half : part ≤ 1 / 2)
    (even : part = 1 / 2 → k % 2 = 0) : IsNearest k (k + part) where
  below := by linarith
  above := by linarith
  tie := by
    rintro (far | tie)
    · linarith
    · exact even (by linarith)

theorem up {part : ℚ} (half : 1 / 2 ≤ part) (less : part ≤ 1)
    (odd : part = 1 / 2 → k % 2 = 1) : IsNearest (k + 1) (k + part) where
  below := by push_cast; linarith
  above := by push_cast; linarith
  tie := by
    push_cast
    rintro (tie | far)
    · have := odd (by linarith)
      omega
    · linarith

theorem natCast (k : ℕ) : IsNearest k k := by
  have nearest : IsNearest k (k + 0) := down le_rfl (by norm_num) (by norm_num)
  rwa [add_zero] at nearest

end IsNearest

private theorem isNearest_roundHalfEven {numerator denominator : ℕ} (positive : 0 < denominator) :
    IsNearest (roundHalfEven numerator denominator) (numerator / denominator) := by
  have split := Nat.div_add_mod numerator denominator
  have small := Nat.mod_lt numerator positive
  have scale : (0 : ℚ) < denominator := by exact_mod_cast positive
  unfold roundHalfEven
  generalize numerator / denominator = quotient at *
  generalize numerator % denominator = remainder at *
  have exact : (numerator : ℚ) / denominator = quotient + remainder / denominator := by
    rw [← split]
    push_cast
    field_simp
  have nonneg : (0 : ℚ) ≤ remainder / denominator := by positivity
  have less : (remainder : ℚ) / denominator < 1 := by
    rw [div_lt_one scale]
    exact_mod_cast small
  have middle : (remainder : ℚ) / denominator = 1 / 2 → 2 * remainder = denominator := by
    intro tie
    rw [div_eq_div_iff scale.ne' (by norm_num)] at tie
    norm_cast at tie
    omega
  dsimp only
  rw [exact]
  split
  next lower =>
    have half : (remainder : ℚ) / denominator ≤ 1 / 2 := by
      rw [div_le_div_iff₀ scale (by norm_num)]
      norm_cast
      omega
    exact .down nonneg half fun tie => by
      have := middle tie
      omega
  next upper =>
    have half : 1 / 2 ≤ (remainder : ℚ) / denominator := by
      rw [div_le_div_iff₀ (by norm_num) scale]
      norm_cast
      omega
    exact .up half less.le fun tie => by
      have := middle tie
      omega

theorem zpow_eq_div {base : ℚ} (nonzero : base ≠ 0) (e : ℤ) :
    base ^ e = base ^ e.toNat / base ^ (-e).toNat := by
  rw [eq_div_iff (pow_ne_zero _ nonzero), ← zpow_natCast, ← zpow_natCast, ← zpow_add₀ nonzero]
  congr 1
  omega

theorem log_eq_of_bounds {r : ℚ} {e : ℤ} (low : 2 ^ e ≤ r) (high : r < 2 ^ (e + 1)) :
    Int.log 2 r = e := by
  have positive : 0 < r := lt_of_lt_of_le (by positivity) low
  have atLeast : e ≤ Int.log 2 r := (Int.zpow_le_iff_le_log one_lt_two positive).mp low
  have below : Int.log 2 r < e + 1 := (Int.lt_zpow_iff_log_lt one_lt_two positive).mp high
  omega

theorem two_zpow_le_iff {numerator denominator : ℕ} (positive : 0 < denominator) (e : ℤ) :
    (2 : ℚ) ^ e ≤ numerator / denominator ↔
      denominator * 2 ^ e.toNat ≤ numerator * 2 ^ (-e).toNat := by
  rw [zpow_eq_div two_ne_zero, div_le_div_iff₀ (by positivity) (by exact_mod_cast positive),
    mul_comm]
  norm_cast

private theorem Decimal.floorLog2_eq_log {numerator denominator : ℕ} (someNumerator : 0 < numerator)
    (someDenominator : 0 < denominator) :
    floorLog2 numerator denominator = Int.log 2 ((numerator : ℚ) / denominator) := by
  have scale : (0 : ℚ) < denominator := by exact_mod_cast someDenominator
  have numeratorLow : (2 : ℚ) ^ (numerator.log2 : ℤ) ≤ numerator := by
    exact_mod_cast Nat.log2_self_le someNumerator.ne'
  have numeratorHigh : (numerator : ℚ) < 2 ^ (numerator.log2 + 1 : ℤ) := by
    exact_mod_cast Nat.lt_log2_self
  have denominatorLow : (2 : ℚ) ^ (denominator.log2 : ℤ) ≤ denominator := by
    exact_mod_cast Nat.log2_self_le someDenominator.ne'
  have denominatorHigh : (denominator : ℚ) < 2 ^ (denominator.log2 + 1 : ℤ) := by
    exact_mod_cast Nat.lt_log2_self
  unfold floorLog2
  simp only [Nat.pow_eq, ← two_zpow_le_iff someDenominator]
  generalize (numerator.log2 : ℤ) = above at *
  generalize (denominator.log2 : ℤ) = below at *
  have high : (numerator : ℚ) / denominator < 2 ^ (above - below + 1) := by
    rw [div_lt_iff₀ scale]
    calc (numerator : ℚ) < 2 ^ (above + 1) := numeratorHigh
      _ = 2 ^ (above - below + 1) * 2 ^ below := by
        rw [← zpow_add₀ two_ne_zero]
        congr 1
        ring
      _ ≤ 2 ^ (above - below + 1) * denominator := by gcongr
  have low : 2 ^ (above - below - 1) ≤ (numerator : ℚ) / denominator := by
    rw [le_div_iff₀ scale]
    calc (2 : ℚ) ^ (above - below - 1) * denominator
        ≤ 2 ^ (above - below - 1) * 2 ^ (below + 1) := by gcongr
      _ = 2 ^ above := by
        rw [← zpow_add₀ two_ne_zero]
        congr 1
        ring
      _ ≤ numerator := numeratorLow
  split
  next reached => exact (log_eq_of_bounds reached high).symm
  next missed =>
    refine (log_eq_of_bounds low ?_).symm
    rw [sub_add_cancel]
    exact lt_of_not_ge missed

/-- The exponent of the unit of the last place of doubles around a number. -/
def unitOf (r : ℚ) : ℤ :=
  max (-1074) (Int.log 2 r - 52)

private theorem unitOf_mono {r s : ℚ} (positive : 0 < r) (ascending : r ≤ s) :
    unitOf r ≤ unitOf s := by
  have logs := Int.log_mono_right (b := 2) positive ascending
  unfold unitOf
  omega

private theorem div_unit_lt (r : ℚ) : r / 2 ^ unitOf r < 2 ^ 53 := by
  rw [div_lt_iff₀ (by positivity)]
  calc r < 2 ^ (Int.log 2 r + 1) := Int.lt_zpow_succ_log_self one_lt_two r
    _ ≤ 2 ^ (53 + unitOf r) := by
      refine zpow_le_zpow_right₀ one_le_two ?_
      unfold unitOf
      omega
    _ = 2 ^ 53 * 2 ^ unitOf r := by
      rw [zpow_add₀ two_ne_zero]
      norm_cast

private theorem le_div_unit {r : ℚ} (positive : 0 < r) (normal : -1074 < unitOf r) :
    2 ^ 52 ≤ r / 2 ^ unitOf r := by
  rw [le_div_iff₀ (by positivity)]
  calc (2 : ℚ) ^ 52 * 2 ^ unitOf r = 2 ^ Int.log 2 r := by
        have exponent : Int.log 2 r = 52 + unitOf r := by
          unfold unitOf at normal ⊢
          omega
        rw [exponent, zpow_add₀ two_ne_zero]
        norm_cast
    _ ≤ r := Int.zpow_log_le_self one_lt_two positive

theorem IsNearest.mantissa_le {k : ℕ} {r : ℚ} (nearest : IsNearest k (r / 2 ^ unitOf r)) :
    k ≤ 2 ^ 53 :=
  nearest.mono (natCast _) (by exact_mod_cast (div_unit_lt r).le)

theorem IsNearest.le_mantissa {k : ℕ} {r : ℚ} (nearest : IsNearest k (r / 2 ^ unitOf r))
    (positive : 0 < r) (normal : -1074 < unitOf r) : 2 ^ 52 ≤ k :=
  (natCast _).mono nearest (by exact_mod_cast le_div_unit positive normal)

/-- The number is rounded to the double with these bits. -/
def RoundsTo (r : ℚ) (bits : ℕ) : Prop :=
  ∃ mantissa, IsNearest mantissa (r / 2 ^ unitOf r) ∧
    bits = min Decimal.infinityBits ((unitOf r + 1074).toNat * 2 ^ 52 + mantissa)

namespace RoundsTo

variable {r s : ℚ} {bits more : ℕ}

theorem bound (rounds : RoundsTo r bits) : bits ≤ Decimal.infinityBits := by
  obtain ⟨_, -, rfl⟩ := rounds
  exact min_le_left ..

theorem mono (first : RoundsTo r bits) (second : RoundsTo s more) (positive : 0 < r)
    (ascending : r ≤ s) : bits ≤ more := by
  obtain ⟨k, nearest, rfl⟩ := first
  obtain ⟨l, nearer, rfl⟩ := second
  refine min_le_min le_rfl ?_
  rcases (unitOf_mono positive ascending).eq_or_lt with same | coarser
  · rw [same] at nearest ⊢
    have := nearest.mono nearer (by gcongr)
    omega
  · -- the smaller number carries at most up to the least one with the greater unit
    have normal : -1074 < unitOf s := lt_of_le_of_lt (le_max_left ..) coarser
    have most := nearest.mantissa_le
    have least := nearer.le_mantissa (positive.trans_le ascending) normal
    have bound : -1074 ≤ unitOf r := le_max_left ..
    omega

theorem unique (first : RoundsTo r bits) (second : RoundsTo r more) : bits = more := by
  obtain ⟨k, nearest, rfl⟩ := first
  obtain ⟨l, nearer, rfl⟩ := second
  rw [nearest.unique nearer]

end RoundsTo

theorem Decimal.roundsTo_bitsOfFraction {numerator denominator : ℕ} (someNumerator : 0 < numerator)
    (someDenominator : 0 < denominator) :
    RoundsTo (numerator / denominator) (bitsOfFraction numerator denominator) := by
  have unit : max (-1074) (Int.log 2 ((numerator : ℚ) / denominator) - 52) =
      unitOf (numerator / denominator) := rfl
  unfold bitsOfFraction RoundsTo
  simp only [floorLog2_eq_log someNumerator someDenominator, Nat.pow_eq, unit]
  generalize unitOf (numerator / denominator) = e
  refine ⟨_, ?_, rfl⟩
  have scaled : (numerator : ℚ) / denominator / 2 ^ e =
      ↑(numerator * 2 ^ (-e).toNat) / ↑(denominator * 2 ^ e.toNat) := by
    rw [zpow_eq_div two_ne_zero]
    push_cast
    field_simp
  rw [scaled]
  exact isNearest_roundHalfEven (by positivity)

end DecisionTree
