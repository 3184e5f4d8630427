import DecisionTree.Proofs.Number.Encoding
import DecisionTree.Proofs.Number.Rounding

/-!
The shortest decimal of a double rounds to that double. A double covers the numbers between the
midpoints to its neighbours; the search stops at a decimal that it covers, and the exact value,
which stands by where the search should fail, is covered too.
-/

namespace DecisionTree

open Decimal (infinityBits)

private theorem unitOf_eq {r : ℚ} {e : ℤ} (positive : 0 < r) (bound : -1074 ≤ e)
    (high : r / 2 ^ e < 2 ^ 53)
    (normal : e = -1074 ∨ 2 ^ 52 ≤ r / 2 ^ e) : unitOf r = e := by
  have scale : (0 : ℚ) < 2 ^ e := by positivity
  have less : r < 2 ^ (53 + e) := by
    rw [zpow_add₀ two_ne_zero]
    exact_mod_cast (div_lt_iff₀ scale).mp high
  have below : Int.log 2 r < 53 + e := (Int.lt_zpow_iff_log_lt one_lt_two positive).mp less
  rcases normal with least | normal
  · unfold unitOf
    omega
  · have more : (2 : ℚ) ^ (52 + e) ≤ r := by
      rw [zpow_add₀ two_ne_zero]
      exact_mod_cast (le_div_iff₀ scale).mp normal
    have atLeast : 52 + e ≤ Int.log 2 r := (Int.zpow_le_iff_le_log one_lt_two positive).mp more
    unfold unitOf
    omega

namespace Dyadic

variable {x : Dyadic} {r : ℚ} {bits : ℕ}

def value (x : Dyadic) : ℚ :=
  x.mantissa * 2 ^ x.exponent

/-- How far below the mantissa the midpoint to the next smaller double is. -/
def margin (x : Dyadic) : ℚ :=
  if x.narrow then 1 / 4 else 1 / 2

/-- The number lies between the midpoints to the neighbouring doubles, and on a midpoint only if the
mantissa is even. -/
structure Covers (x : Dyadic) (r : ℚ) : Prop where
  below : x.mantissa - x.margin ≤ r / 2 ^ x.exponent
  above : r / 2 ^ x.exponent ≤ x.mantissa + 1 / 2
  tie : r / 2 ^ x.exponent = x.mantissa - x.margin ∨ r / 2 ^ x.exponent = x.mantissa + 1 / 2 →
    x.mantissa % 2 = 0

private theorem margin_pos (x : Dyadic) : 0 < x.margin := by
  unfold margin
  split <;> norm_num

theorem margin_le (x : Dyadic) : x.margin ≤ 1 / 2 := by
  unfold margin
  split <;> norm_num

theorem covers_value (x : Dyadic) : x.Covers x.value := by
  have scaled : x.value / 2 ^ x.exponent = x.mantissa := by
    unfold value
    field_simp
  have margin := x.margin_pos
  refine ⟨by linarith, by linarith, ?_⟩
  rintro (end_ | end_) <;> linarith

theorem Covers.pos (covered : x.Covers r) (some : 0 < x.mantissa) : 0 < r := by
  have least : (1 : ℚ) ≤ x.mantissa := by exact_mod_cast some
  have margin := x.margin_le
  have below := covered.below
  have scaled : 0 < r / 2 ^ x.exponent := by linarith
  exact (div_pos_iff_of_pos_right (by positivity)).mp scaled

/-- Inside its own unit a covered number is nearest to the mantissa. -/
theorem Covers.isNearest (covered : x.Covers r) : IsNearest x.mantissa (r / 2 ^ x.exponent) := by
  have margin := x.margin_le
  have below := covered.below
  refine ⟨by linarith, covered.above, ?_⟩
  rintro (half | half)
  · exact covered.tie (.inl (by linarith))
  · exact covered.tie (.inr half)

/-- What a double covers is rounded to it. -/
theorem Canonical.roundsTo (canonical : x.Canonical) (some : 0 < x.mantissa)
    (covered : x.Covers r) :
    RoundsTo r (min infinityBits ((x.exponent + 1074).toNat * 2 ^ 52 + x.mantissa)) := by
  have positive := covered.pos some
  have above := covered.above
  have small : (x.mantissa : ℚ) + 1 ≤ 2 ^ 53 := by exact_mod_cast canonical.small
  by_cases own : x.exponent = -1074 ∨ 2 ^ 52 ≤ r / 2 ^ x.exponent
  · have unit : unitOf r = x.exponent :=
      unitOf_eq positive canonical.bound (by linarith) own
    exact ⟨x.mantissa, unit ▸ covered.isNearest, by rw [unit]⟩
  · -- below a power of two the unit is half as large, and the mantissa carries
    obtain ⟨notLeast, less⟩ := not_or.mp own
    have margin := x.margin_le
    have below := covered.below
    have bound := canonical.bound
    have normal : (2 : ℚ) ^ 52 ≤ x.mantissa := by
      exact_mod_cast canonical.normal.resolve_left notLeast
    have near : (x.mantissa : ℚ) < 2 ^ 52 + 1 := by linarith
    have power : x.mantissa = 2 ^ 52 := by
      have : x.mantissa < 2 ^ 52 + 1 := by exact_mod_cast near
      have := canonical.normal.resolve_left notLeast
      omega
    have narrow : x.narrow = true := canonical.narrow.mpr ⟨power, by omega⟩
    have quarter : x.margin = 1 / 4 := if_pos narrow
    rw [power, quarter] at below
    have doubled : r / 2 ^ (x.exponent - 1) = 2 * (r / 2 ^ x.exponent) := by
      rw [zpow_sub_one₀ two_ne_zero]
      field_simp
    push_cast at below
    have unit : unitOf r = x.exponent - 1 := by
      refine unitOf_eq positive (by omega) ?_ (.inr ?_)
      · rw [doubled]
        linarith
      · rw [doubled]
        linarith
    refine ⟨2 ^ 53, ?_, ?_⟩
    · rw [unit, doubled]
      refine ⟨by push_cast; linarith, by push_cast; linarith, fun _ => by norm_num⟩
    · rw [unit, power]
      exact congrArg (min infinityBits) (by omega)

theorem roundsTo_of_covers (some : 0 < bits) (finite : bits < infinityBits)
    (covered : (ofMagnitude bits).Covers r) : RoundsTo r bits := by
  have rounded := (canonical_ofMagnitude bits).roundsTo (mantissa_pos_of_magnitude some) covered
  rwa [← bits_eq, min_eq_right finite.le] at rounded

def gridValue (digits : ℕ) (grid : ℤ) : ℚ :=
  digits * 10 ^ grid

variable {digits : ℕ} {grid : ℤ} {tie : Tie}

theorem compareQuarters_eq (x : Dyadic) (digits : ℕ) (grid : ℤ) (bound : ℕ) :
    x.compareQuarters digits grid bound =
      cmp (4 * (gridValue digits grid / 2 ^ x.exponent)) (bound : ℚ) := by
  have scale : (0 : ℚ) < 2 ^ (x.exponent - 2).toNat * 10 ^ (-grid).toNat := by positivity
  have quarter : (2 : ℚ) ^ x.exponent = 4 * 2 ^ (x.exponent - 2) := by
    rw [zpow_sub₀ two_ne_zero]
    norm_num
    ring
  have whole : x.compareQuarters digits grid bound =
      compare (digits * 10 ^ grid.toNat * 2 ^ (2 - x.exponent).toNat)
        (bound * 2 ^ (x.exponent - 2).toNat * 10 ^ (-grid).toNat) := rfl
  rw [whole, ← cmp_eq_compare, ← (Nat.strictMono_cast (α := ℚ)).cmp_map_eq]
  refine Eq.trans (congrArg₂ cmp ?_ ?_) (cmp_mul_pos_right scale _ _)
  · unfold gridValue
    rw [quarter, zpow_eq_div (by norm_num : (10 : ℚ) ≠ 0), zpow_eq_div two_ne_zero, neg_sub]
    push_cast
    field_simp
  · push_cast
    ring

theorem compareQuarters_eq_gt_iff {bound : ℕ} : x.compareQuarters digits grid bound = .gt ↔
    (bound : ℚ) < 4 * (gridValue digits grid / 2 ^ x.exponent) := by
  rw [compareQuarters_eq, cmp_eq_gt_iff]

theorem compareQuarters_eq_eq_iff {bound : ℕ} : x.compareQuarters digits grid bound = .eq ↔
    4 * (gridValue digits grid / 2 ^ x.exponent) = bound := by
  rw [compareQuarters_eq, cmp_eq_eq_iff]

theorem compareQuarters_eq_lt_iff {bound : ℕ} : x.compareQuarters digits grid bound = .lt ↔
    4 * (gridValue digits grid / 2 ^ x.exponent) < bound := by
  rw [compareQuarters_eq, cmp_eq_lt_iff]

/-- The lower midpoint in quarters of the unit. -/
theorem quarters_below (some : 0 < x.mantissa) :
    ((if x.narrow then 4 * x.mantissa - 1 else 4 * x.mantissa - 2 : ℕ) : ℚ) =
      4 * (x.mantissa - x.margin) := by
  unfold margin
  split
  · rw [Nat.cast_sub (by omega)]
    push_cast
    ring
  · rw [Nat.cast_sub (by omega)]
    push_cast
    ring

theorem covers_of_readsBack (some : 0 < x.mantissa) (reads : x.readsBack digits grid = true) :
    x.Covers (gridValue digits grid) := by
  unfold readsBack at reads
  simp only [Bool.and_eq_true, Bool.or_eq_true, beq_iff_eq, compareQuarters_eq_gt_iff,
    compareQuarters_eq_eq_iff, compareQuarters_eq_lt_iff, quarters_below some] at reads
  push_cast at reads
  obtain ⟨low, high⟩ := reads
  constructor
  · rcases low with less | ⟨-, same⟩ <;> linarith
  · rcases high with less | ⟨-, same⟩ <;> linarith
  · rintro (lowEnd | highEnd)
    · rcases low with less | ⟨even, -⟩
      · linarith
      · exact even
    · rcases high with less | ⟨even, -⟩
      · linarith
      · exact even

theorem covers_of_onGrid? (some : 0 < x.mantissa) (found : x.onGrid? tie grid = .some digits) :
    x.Covers (gridValue digits grid) := by
  refine covers_of_readsBack some ?_
  unfold onGrid? at found
  dsimp only at found
  split at found
  next lower _ => cases found; exact lower
  next _ upper => cases found; exact upper
  next => cases found
  next lower upper =>
    split at found
    next => cases found; exact lower
    next => cases found; exact upper
    next =>
      cases found
      split
      · exact lower
      · exact upper

theorem covers_of_search? (some : 0 < x.mantissa) {attempts : ℕ} {start : ℤ}
    (found : x.search? tie attempts start = .some (digits, grid)) :
    x.Covers (gridValue digits grid) := by
  induction attempts generalizing start with
  | zero => cases found
  | succ attempts ih =>
    rw [search?] at found
    split at found
    next held =>
      cases found
      exact covers_of_onGrid? some held
    next => exact ih found

private theorem gridValue_exact (x : Dyadic) : gridValue x.exact.1 x.exact.2 = x.value := by
  unfold gridValue exact value
  simp only [Nat.pow_eq]
  rw [zpow_eq_div two_ne_zero, zpow_eq_div (by norm_num : (10 : ℚ) ≠ 0)]
  have whole : (min 0 x.exponent).toNat = 0 := by omega
  have places : (-min 0 x.exponent).toNat = (-x.exponent).toNat := by omega
  rw [whole, places, show (10 : ℚ) = 2 * 5 by norm_num]
  simp only [mul_pow]
  push_cast
  field_simp

private theorem gridValue_stripZeros (digits : ℕ) (grid : ℤ) :
    gridValue (stripZeros digits grid).1 (stripZeros digits grid).2 = gridValue digits grid := by
  fun_induction stripZeros digits grid with
  | case1 digits grid zero ih =>
    rw [ih]
    have whole : (digits : ℚ) = 10 * (digits / 10 : ℕ) := by
      have := Nat.div_add_mod digits 10
      exact_mod_cast show digits = 10 * (digits / 10) by omega
    unfold gridValue
    rw [zpow_add_one₀ (by norm_num), whole]
    ring
  | case2 => rfl

/-- The shortest decimal is covered. -/
theorem covers_shortest (some : 0 < x.mantissa) :
    x.Covers (gridValue (x.shortest tie).1 (x.shortest tie).2) := by
  unfold shortest
  rw [gridValue_stripZeros]
  cases found : x.search? tie 17 (x.scale - 1) with
  | none =>
    rw [Option.getD_none, gridValue_exact]
    exact x.covers_value
  | some result => exact covers_of_search? some found

end Dyadic

theorem two_pow_lt_ten_pow : (2 : ℚ) ^ 1075 < 10 ^ 400 :=
  calc (2 : ℚ) ^ 1075 = (2 ^ 43) ^ 25 := by rw [← pow_mul]
    _ < (10 ^ 16) ^ 25 := by
      gcongr
      norm_num
    _ = 10 ^ 400 := by rw [← pow_mul]

open DecisionTree.Dyadic (gridValue)

namespace Decimal

variable {d : Decimal} {r : ℚ} {bits : ℕ}

private theorem lt_of_roundsTo (rounded : RoundsTo r bits) (finite : bits < infinityBits) :
    r < 2 ^ (1025 : ℤ) := by
  obtain ⟨mantissa, -, rfl⟩ := rounded
  have log : Int.log 2 r + 1 ≤ 1025 := by
    have unit : unitOf r ≤ 972 := by
      unfold infinityBits at finite
      omega
    unfold unitOf at unit
    omega
  exact (Int.lt_zpow_succ_log_self one_lt_two r).trans_le (zpow_le_zpow_right₀ one_le_two log)

private theorem le_of_covers {x : Dyadic} (canonical : x.Canonical) (some : 0 < x.mantissa)
    (covered : x.Covers r) : 2 ^ (-1075 : ℤ) ≤ r := by
  have least : (1 : ℚ) ≤ x.mantissa := by exact_mod_cast some
  have margin := x.margin_le
  have below := covered.below
  calc
    (2 : ℚ) ^ (-1075 : ℤ) = 1 / 2 * 2 ^ (-1074 : ℤ) := by
      rw [show (-1075 : ℤ) = -1074 - 1 by norm_num, zpow_sub_one₀ two_ne_zero]
      ring
    _ ≤ 1 / 2 * 2 ^ x.exponent := by
      have := canonical.bound
      gcongr
      exact one_le_two
    _ ≤ r := by
      rw [← le_div_iff₀ (by positivity)]
      linarith

private theorem gridValue_lt {digits : ℕ} {grid : ℤ} (tiny : grid + digits.log2 + 400 < 0) :
    gridValue digits grid < 2 ^ (-1075 : ℤ) := by
  have length : (digits : ℚ) < 10 ^ (digits.log2 + 1 : ℤ) := by
    have : digits < 10 ^ (digits.log2 + 1) :=
      Nat.lt_log2_self.trans_le (Nat.pow_le_pow_left (by norm_num) _)
    exact_mod_cast this
  unfold gridValue
  calc (digits : ℚ) * 10 ^ grid < 10 ^ (digits.log2 + 1 : ℤ) * 10 ^ grid := by gcongr
    _ = 10 ^ (grid + digits.log2 + 1) := by
      rw [← zpow_add₀ (by norm_num)]
      congr 1
      ring
    _ ≤ 10 ^ (-400 : ℤ) := zpow_le_zpow_right₀ (by norm_num) (by omega)
    _ < 2 ^ (-1075 : ℤ) := by
      rw [zpow_neg, zpow_neg, inv_lt_inv₀ (by positivity) (by positivity)]
      exact_mod_cast two_pow_lt_ten_pow

/-- Unless its exponent decides the answer, a decimal is rounded to its bits. -/
theorem roundsTo_magnitudeBits (some : 0 < d.digits) (high : d.exponent ≤ 400)
    (low : 0 ≤ d.exponent + d.digits.log2 + 400) :
    RoundsTo (gridValue d.digits d.exponent) d.magnitudeBits := by
  have numerator : 0 < d.digits * 10 ^ d.exponent.toNat := by positivity
  have denominator : 0 < 10 ^ (-d.exponent).toNat := by positivity
  have exact := roundsTo_bitsOfFraction numerator denominator
  have value : ((d.digits * 10 ^ d.exponent.toNat : ℕ) : ℚ) / (10 ^ (-d.exponent).toNat : ℕ) =
      gridValue d.digits d.exponent := by
    unfold gridValue
    rw [zpow_eq_div (by norm_num : (10 : ℚ) ≠ 0)]
    push_cast
    ring
  rw [value] at exact
  unfold magnitudeBits
  rw [if_neg some.ne', if_neg high.not_gt, if_neg low.not_gt]
  exact exact

/-- A decimal that a double covers has the bits of that double. -/
theorem magnitudeBits_of_covers (some : 0 < bits) (finite : bits < infinityBits)
    (covered : (Dyadic.ofMagnitude bits).Covers (gridValue d.digits d.exponent)) :
    d.magnitudeBits = bits := by
  have mantissa := Dyadic.mantissa_pos_of_magnitude some
  have rounded := Dyadic.roundsTo_of_covers some finite covered
  have positive := covered.pos mantissa
  have digits : 0 < d.digits := by
    refine Nat.pos_of_ne_zero fun zero => ?_
    simp [gridValue, zero] at positive
  have high : d.exponent ≤ 400 := by
    by_contra huge
    have high := lt_of_roundsTo rounded finite
    have low : (2 : ℚ) ^ (1025 : ℤ) ≤ gridValue d.digits d.exponent := by
      have least : (1 : ℚ) ≤ d.digits := by exact_mod_cast digits
      calc (2 : ℚ) ^ (1025 : ℤ) ≤ 2 ^ (1075 : ℤ) := zpow_le_zpow_right₀ one_le_two (by norm_num)
        _ ≤ 1 * 10 ^ (400 : ℤ) := by
          rw [one_mul]
          exact_mod_cast two_pow_lt_ten_pow.le
        _ ≤ d.digits * 10 ^ d.exponent := by
          gcongr
          · norm_num
          · omega
    exact absurd high low.not_gt
  have low : 0 ≤ d.exponent + d.digits.log2 + 400 := by
    by_contra tiny
    have low := le_of_covers (Dyadic.canonical_ofMagnitude bits) mantissa covered
    exact absurd (gridValue_lt (by omega)) low.not_gt
  exact (roundsTo_magnitudeBits digits high low).unique rounded

end Decimal
end DecisionTree
