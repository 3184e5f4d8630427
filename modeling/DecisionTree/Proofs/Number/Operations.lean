import DecisionTree.Proofs.Number.Encoding
import DecisionTree.Proofs.Number.Rounding

/-!
Sums and quotients of positive doubles are the exact ones, rounded. The operations work
with a mantissa cut off at some place and with what is known about the rest: whether there is one,
and how it compares with one half. Cutting off more keeps this knowledge right, and it is all that
rounding asks for.
-/

namespace DecisionTree

open Decimal (infinityBits)
open Float.Model (UnpackedFloat totalExponent)
open Float.Model.UnpackedFloat (Sign Accuracy ExtendedMantissa accuracyOfFraction pack add
  div divCore shiftToTargetExponent roundWithAccuracy decreaseExponent)

namespace Encoding

variable {mantissa : ℕ} {exponent : ℤ} {y : ℚ} {em : ExtendedMantissa}

/-- The mantissa is the whole part of the number, and the bits say what is known of the rest. -/
structure Describes (em : ExtendedMantissa) (y : ℚ) : Prop where
  below : em.mantissa ≤ y
  above : y < em.mantissa + 1
  round : em.roundBit = true ↔ em.mantissa + 1 / 2 ≤ y
  sticky : em.stickyBit = true ↔ y ≠ em.mantissa ∧ y ≠ em.mantissa + 1 / 2

/-- It is enough to look at the part that is cut off. -/
theorem describes_add {round sticky : Bool} {part : ℚ} (nonneg : 0 ≤ part) (less : part < 1)
    (half : round = true ↔ 1 / 2 ≤ part) (some : sticky = true ↔ part ≠ 0 ∧ part ≠ 1 / 2) :
    Describes ⟨mantissa, round, sticky⟩ (mantissa + part) where
  below := by linarith
  above := by linarith
  round := by rw [half, add_le_add_iff_left]
  sticky := by rw [some, ne_eq, ne_eq, ne_eq, ne_eq, add_eq_left, add_right_inj]

theorem describes_exact (mantissa : ℕ) :
    Describes (.ofMantissaAndAccuracy mantissa .exact) mantissa := by
  have described : Describes ⟨mantissa, false, false⟩ (mantissa + 0) :=
    describes_add le_rfl one_pos (by norm_num) (by norm_num)
  rwa [add_zero] at described

private theorem describes_fraction (mantissa : ℕ) {numerator denominator : ℕ}
    (small : numerator < denominator) :
    Describes (.ofMantissaAndAccuracy mantissa (accuracyOfFraction numerator denominator))
      (mantissa + numerator / denominator) := by
  have scale : (0 : ℚ) < denominator := by exact_mod_cast Nat.zero_lt_of_lt small
  have less : (numerator : ℚ) / denominator < 1 := by
    rw [div_lt_one scale]
    exact_mod_cast small
  unfold accuracyOfFraction
  split
  next zero =>
    simpa [zero] using describes_exact mantissa
  next nonzero =>
    have positive : 0 < (numerator : ℚ) / denominator := by
      have : (0 : ℚ) < numerator := by exact_mod_cast Nat.pos_of_ne_zero nonzero
      positivity
    have order : compare (2 * numerator) denominator =
        cmp ((numerator : ℚ) / denominator) (1 / 2) := by
      rw [← cmp_mul_pos_right (by positivity : (0 : ℚ) < 2 * denominator), ← cmp_eq_compare,
        ← (Nat.strictMono_cast (α := ℚ)).cmp_map_eq]
      congr 1
      · push_cast
        field_simp
      · field_simp
    rw [order]
    rcases lt_trichotomy ((numerator : ℚ) / denominator) (1 / 2) with lower | half | upper
    · rw [(cmp_eq_lt_iff _ _).mpr lower]
      exact describes_add positive.le less (iff_of_false Bool.false_ne_true lower.not_ge)
        (iff_of_true rfl ⟨positive.ne', lower.ne⟩)
    · rw [(cmp_eq_eq_iff _ _).mpr half]
      exact describes_add positive.le less (iff_of_true rfl half.ge)
        (iff_of_false Bool.false_ne_true fun neither => neither.2 half)
    · rw [(cmp_eq_gt_iff _ _).mpr upper]
      exact describes_add positive.le less (iff_of_true rfl upper.le)
        (iff_of_true rfl ⟨positive.ne', upper.ne'⟩)

private theorem Describes.halve (described : Describes em y) :
    Describes em.shiftRightOne (y / 2) := by
  obtain ⟨below, above, round, sticky⟩ := described
  have some : em.roundBit = true ∨ em.stickyBit = true ↔ y ≠ em.mantissa := by
    rw [round, sticky]
    constructor
    · rintro (half | ⟨different, -⟩)
      · linarith
      · exact different
    · intro different
      by_cases half : em.mantissa + 1 / 2 ≤ y
      · exact .inl half
      · exact .inr ⟨different, fun same => half same.ge⟩
  obtain ⟨half, even | odd⟩ := Nat.even_or_odd' em.mantissa
  · have shifted : em.shiftRightOne = ⟨half, false, em.roundBit || em.stickyBit⟩ := by
      simp [ExtendedMantissa.shiftRightOne, even]
    have whole : (em.mantissa : ℚ) = 2 * half := by exact_mod_cast even
    rw [whole] at below above some
    rw [shifted, ← add_sub_cancel (half : ℚ) (y / 2)]
    refine describes_add (by linarith) (by linarith)
      (iff_of_false Bool.false_ne_true (by linarith)) ?_
    rw [Bool.or_eq_true, some]
    constructor
    · exact fun different => ⟨fun same => different (by linarith), fun same => by linarith⟩
    · exact fun ⟨different, _⟩ same => different (by linarith)
  · have shifted : em.shiftRightOne = ⟨half, true, em.roundBit || em.stickyBit⟩ := by
      have quotient : (2 * half + 1) / 2 = half := by omega
      simp [ExtendedMantissa.shiftRightOne, odd, quotient]
    have whole : (em.mantissa : ℚ) = 2 * half + 1 := by exact_mod_cast odd
    rw [whole] at below above some
    rw [shifted, ← add_sub_cancel (half : ℚ) (y / 2)]
    refine describes_add (by linarith) (by linarith) (iff_of_true rfl (by linarith)) ?_
    rw [Bool.or_eq_true, some]
    constructor
    · exact fun different => ⟨fun same => by linarith, fun same => different (by linarith)⟩
    · exact fun ⟨_, different⟩ same => different (by linarith)

private theorem Describes.shift (described : Describes em y) (places : ℕ) :
    Describes (em >>> places) (y / 2 ^ places) := by
  induction places with
  | zero =>
    rw [pow_zero, div_one]
    exact described
  | succ places ih =>
    have halved := ih.halve
    rw [div_div, ← pow_succ] at halved
    exact halved

private theorem Describes.isNearest (described : Describes em y) :
    IsNearest em.roundedMantissa y := by
  obtain ⟨mantissa, roundBit, stickyBit⟩ := em
  obtain ⟨below, above, round, sticky⟩ := described
  dsimp only at below above round sticky
  rw [← add_sub_cancel (mantissa : ℚ) y]
  cases roundBit with
  | false =>
    have less := mt round.mpr Bool.false_ne_true
    have rounded : IsNearest mantissa (mantissa + (y - mantissa)) :=
      .down (by linarith) (by linarith) fun half => by linarith
    cases stickyBit <;> exact rounded
  | true =>
    have least := round.mp rfl
    cases stickyBit with
    | false =>
      -- a tie, which goes to the even neighbour
      have half : y = mantissa + 1 / 2 := by
        by_contra different
        exact Bool.false_ne_true (sticky.mpr ⟨fun same => by linarith, different⟩)
      have rounded : IsNearest (mantissa + mantissa % 2) (mantissa + (y - mantissa)) := by
        rcases Nat.mod_two_eq_zero_or_one mantissa with even | odd
        · rw [even]
          exact .down (by linarith) (by linarith) fun _ => even
        · rw [odd]
          exact .up (by linarith) (by linarith) fun _ => odd
      exact rounded
    | true =>
      obtain ⟨-, different⟩ := sticky.mp rfl
      have rounded : IsNearest (mantissa + 1) (mantissa + (y - mantissa)) :=
        .up (by linarith) (by linarith) fun half => absurd (by linarith) different
      exact rounded

theorem targetExponent_eq (total : ℤ) :
    double.targetExponent total = max (total - 53) (-1074) := rfl

private theorem mantissa_ofMantissaAndAccuracy (mantissa : ℕ) (accuracy : Accuracy) :
    (ExtendedMantissa.ofMantissaAndAccuracy mantissa accuracy).mantissa = mantissa := by
  cases accuracy with
  | exact => rfl
  | inexact order => cases order <;> rfl

/-- The whole part tells where the unit is, if it is not zero. -/
theorem targetExponent_of_pos (some : 0 < mantissa) (below : mantissa ≤ y)
    (above : y < mantissa + 1) :
    double.targetExponent (totalExponent mantissa exponent) = unitOf (y * 2 ^ exponent) := by
  have low : (2 : ℚ) ^ mantissa.log2 ≤ mantissa := by
    exact_mod_cast Nat.log2_self_le some.ne'
  have high : (mantissa : ℚ) + 1 ≤ 2 ^ (mantissa.log2 + 1) := by
    exact_mod_cast Nat.succ_le_of_lt Nat.lt_log2_self
  have log : Int.log 2 (y * 2 ^ exponent) = mantissa.log2 + exponent := by
    refine log_eq_of_bounds ?_ ?_
    · rw [zpow_add₀ two_ne_zero, zpow_natCast]
      gcongr
      exact low.trans below
    · have carried : (mantissa.log2 : ℤ) + exponent + 1 = (mantissa.log2 + 1 : ℕ) + exponent := by
        push_cast
        ring
      rw [carried, zpow_add₀ two_ne_zero, zpow_natCast]
      gcongr
      exact above.trans_le high
  rw [targetExponent_eq]
  unfold totalExponent unitOf
  omega

private theorem targetExponent_eq_unitOf (below : mantissa ≤ y) (above : y < mantissa + 1)
    (positive : 0 < y) (precise : exponent ≤ unitOf (y * 2 ^ exponent)) :
    double.targetExponent (totalExponent mantissa exponent) = unitOf (y * 2 ^ exponent) := by
  rcases Nat.eq_zero_or_pos mantissa with rfl | some
  · have less : y * 2 ^ exponent < 2 ^ exponent :=
      mul_lt_of_lt_one_left (by positivity) (by simpa using above)
    have log : Int.log 2 (y * 2 ^ exponent) < exponent :=
      (Int.lt_zpow_iff_log_lt one_lt_two (by positivity)).mp less
    rw [targetExponent_eq]
    unfold totalExponent
    unfold unitOf at precise ⊢
    simp only [Nat.log2_zero]
    omega
  · exact targetExponent_of_pos some below above

theorem shiftToTargetExponent_eq (accuracy : Accuracy) :
    shiftToTargetExponent double mantissa exponent accuracy =
      (ExtendedMantissa.ofMantissaAndAccuracy mantissa accuracy >>>
        (double.targetExponent (totalExponent mantissa exponent) - exponent).toNat,
        exponent + (double.targetExponent (totalExponent mantissa exponent) - exponent).toNat) :=
  rfl

/-- Once rounded a mantissa is shifted again only if it has carried into a new digit; the bits that
it makes with its exponent stay the same. -/
theorem shift_rounded (bound : -1074 ≤ exponent) (small : mantissa ≤ 2 ^ 53)
    (normal : exponent = -1074 ∨ 2 ^ 52 ≤ mantissa) :
    ∃ shifted e, shiftToTargetExponent double mantissa exponent .exact = (shifted, e) ∧
      -1074 ≤ e ∧ shifted.mantissa < 2 ^ 53 ∧ (e = -1074 ∨ 2 ^ 52 ≤ shifted.mantissa) ∧
      (e + 1074).toNat * 2 ^ 52 + shifted.mantissa =
        (exponent + 1074).toNat * 2 ^ 52 + mantissa := by
  rcases small.lt_or_eq with less | carried
  · have digits : mantissa.log2 ≤ 52 := by
      rcases Nat.eq_zero_or_pos mantissa with rfl | some
      · simp
      · exact Nat.lt_succ_iff.mp ((Nat.log2_lt some.ne').mpr less)
    have stay : (double.targetExponent (totalExponent mantissa exponent) - exponent).toNat = 0 := by
      rw [targetExponent_eq]
      unfold totalExponent
      omega
    refine ⟨⟨mantissa, false, false⟩, exponent, ?_, bound, less, normal, rfl⟩
    rw [shiftToTargetExponent_eq, stay, Nat.cast_zero, add_zero]
    rfl
  · have digits : mantissa.log2 = 53 := by
      rw [carried]
      exact Nat.log2_two_pow
    have next : (double.targetExponent (totalExponent mantissa exponent) - exponent).toNat = 1 := by
      rw [targetExponent_eq]
      unfold totalExponent
      omega
    refine ⟨ExtendedMantissa.shiftRightOne ⟨mantissa, false, false⟩, exponent + 1, ?_, ?_, ?_,
      .inr ?_, ?_⟩
    · rw [shiftToTargetExponent_eq, next]
      rfl
    · omega
    · change mantissa / 2 < _
      omega
    · change _ ≤ mantissa / 2
      omega
    · change _ + mantissa / 2 = _
      omega

/-- Rounding what is left of a cut-off number rounds the number. -/
theorem roundsTo_roundWithAccuracy (sign : Sign) {accuracy : Accuracy}
    (described : Describes (.ofMantissaAndAccuracy mantissa accuracy) y) (positive : 0 < y)
    (precise : exponent ≤ unitOf (y * 2 ^ exponent)) :
    ∃ bits, RoundsTo (y * 2 ^ exponent) bits ∧
      (pack double (roundWithAccuracy double sign mantissa exponent accuracy)).toNat =
        sign.toBitVec.toNat * 2 ^ 63 + bits := by
  have whole := mantissa_ofMantissaAndAccuracy mantissa accuracy
  have above := described.above
  have below := described.below
  rw [whole] at above below
  have target := targetExponent_eq_unitOf below above positive precise
  have amount : 0 < y * 2 ^ exponent := by positivity
  generalize cut : (unitOf (y * 2 ^ exponent) - exponent).toNat = places
  have reached : exponent + places = unitOf (y * 2 ^ exponent) := by omega
  have scaled : y * 2 ^ exponent / 2 ^ unitOf (y * 2 ^ exponent) = y / 2 ^ places := by
    rw [← reached, zpow_add₀ two_ne_zero, zpow_natCast]
    field_simp
  have nearest := (described.shift places).isNearest
  rw [← scaled] at nearest
  have least : -1074 ≤ unitOf (y * 2 ^ exponent) := le_max_left ..
  have normal : unitOf (y * 2 ^ exponent) = -1074 ∨
      2 ^ 52 ≤ (ExtendedMantissa.ofMantissaAndAccuracy mantissa accuracy >>>
        places).roundedMantissa := by
    rcases least.eq_or_lt with same | more
    · exact .inl same.symm
    · exact .inr (nearest.le_mantissa amount more)
  obtain ⟨shifted, e, again, bound, small, full, bits⟩ :=
    shift_rounded least nearest.mantissa_le normal
  refine ⟨_, ⟨_, nearest, rfl⟩, ?_⟩
  unfold roundWithAccuracy
  rw [shiftToTargetExponent_eq, target, cut, reached]
  dsimp only
  rw [again, ← bits]
  dsimp only
  by_cases zero : shifted.mantissa = 0
  · have lowest : e = -1074 := full.resolve_right (by omega)
    rw [dif_pos zero, toNat_pack_zero, zero, lowest]
    simp
  · rw [dif_neg zero]
    exact toNat_pack_finite bound small full

theorem decreaseExponent_value (mantissa : ℕ) (exponent target : ℤ) :
    ((decreaseExponent mantissa exponent target).1 : ℚ) *
        2 ^ (decreaseExponent mantissa exponent target).2 = mantissa * 2 ^ exponent := by
  unfold decreaseExponent
  simp only [Nat.shiftLeft_eq]
  push_cast
  rw [← zpow_natCast, mul_assoc, ← zpow_add₀ two_ne_zero]
  congr 2
  omega

theorem roundsTo_round (sign : Sign) (exponent : ℤ) (some : 0 < mantissa) :
    ∃ bits, RoundsTo (mantissa * 2 ^ exponent) bits ∧
      (pack double (UnpackedFloat.round double sign mantissa exponent)).toNat =
        sign.toBitVec.toNat * 2 ^ 63 + bits := by
  have target : double.targetExponent (totalExponent mantissa exponent) =
      unitOf (mantissa * 2 ^ exponent) :=
    targetExponent_of_pos some le_rfl (by linarith)
  have value := decreaseExponent_value mantissa exponent (unitOf (mantissa * 2 ^ exponent))
  have fine : (decreaseExponent mantissa exponent (unitOf (mantissa * 2 ^ exponent))).2 ≤
      unitOf (mantissa * 2 ^ exponent) := by
    change exponent - (exponent - unitOf (mantissa * 2 ^ exponent)).toNat ≤ _
    omega
  unfold UnpackedFloat.round
  rw [target]
  dsimp only
  generalize decreaseExponent mantissa exponent (unitOf (mantissa * 2 ^ exponent)) = lowered at *
  have amount : (0 : ℚ) < lowered.1 * 2 ^ lowered.2 := by
    rw [value]
    positivity
  have whole : (0 : ℚ) < lowered.1 := (mul_pos_iff_of_pos_right (by positivity)).mp amount
  rw [← value] at fine ⊢
  exact roundsTo_roundWithAccuracy sign (describes_exact lowered.1) whole fine

variable {mantissa' : ℕ} {exponent' : ℤ} {some : 0 < mantissa} {some' : 0 < mantissa'}

/-- The sum of two positive numbers is the exact one, rounded. -/
theorem roundsTo_add :
    ∃ bits, RoundsTo (mantissa * 2 ^ exponent + mantissa' * 2 ^ exponent') bits ∧
      (pack double (add double (.finite .positive mantissa exponent some)
        (.finite .positive mantissa' exponent' some'))).toNat = bits := by
  have aligned (m : ℕ) {e : ℤ} (bound : min exponent exponent' ≤ e) :
      (m : ℚ) * 2 ^ e =
        (decreaseExponent m e (min exponent exponent')).1 * 2 ^ min exponent exponent' := by
    have lowered : (decreaseExponent m e (min exponent exponent')).2 = min exponent exponent' := by
      change e - (e - min exponent exponent').toNat = _
      omega
    rw [← decreaseExponent_value m e (min exponent exponent'), lowered]
  have sum := aligned mantissa (min_le_left exponent exponent')
  have sum' := aligned mantissa' (min_le_right exponent exponent')
  have whole : 0 < (decreaseExponent mantissa exponent (min exponent exponent')).1 := by
    change 0 < mantissa <<< _
    rw [Nat.shiftLeft_eq]
    positivity
  rw [sum, sum', ← add_mul]
  unfold add
  dsimp only [Sign.apply]
  revert whole
  generalize (decreaseExponent mantissa exponent (min exponent exponent')).1 = first
  generalize (decreaseExponent mantissa' exponent' (min exponent exponent')).1 = second
  intro whole
  have positive : compare ((first : ℤ) + second) 0 = .gt := compare_gt_iff_gt.mpr (by omega)
  obtain ⟨bits, rounds, packed⟩ := roundsTo_round .positive (min exponent exponent')
    (by omega : 0 < first + second)
  push_cast at rounds
  refine ⟨bits, rounds, ?_⟩
  unfold UnpackedFloat.normalize
  rw [positive]
  dsimp only
  rw [← Nat.cast_add, Int.toNat_natCast, packed]
  exact (Nat.zero_add bits : 0 * 2 ^ 63 + bits = bits)

private theorem unit_of_quotient (exponent exponent' : ℤ) (someFirst : 0 < mantissa)
    (someSecond : 0 < mantissa') :
    double.targetExponent (totalExponent mantissa exponent - totalExponent mantissa' exponent') ≤
      unitOf (mantissa * 2 ^ exponent / (mantissa' * 2 ^ exponent')) := by
  have low : (2 : ℚ) ^ mantissa.log2 ≤ mantissa := by
    exact_mod_cast Nat.log2_self_le someFirst.ne'
  have high : (mantissa' : ℚ) < 2 ^ (mantissa'.log2 + 1) := by
    exact_mod_cast Nat.lt_log2_self
  have least : (2 : ℚ) ^ (mantissa.log2 + exponent - (mantissa'.log2 + 1 + exponent') : ℤ) ≤
      mantissa * 2 ^ exponent / (mantissa' * 2 ^ exponent') := by
    rw [zpow_sub₀ two_ne_zero, zpow_add₀ two_ne_zero, zpow_add₀ two_ne_zero]
    gcongr
    · exact_mod_cast low
    · exact_mod_cast high.le
  have log := (Int.zpow_le_iff_le_log one_lt_two (by positivity)).mp least
  rw [targetExponent_eq]
  unfold totalExponent unitOf
  omega

/-- The quotient of two positive numbers is the exact one, rounded. -/
theorem roundsTo_div :
    ∃ bits, RoundsTo (mantissa * 2 ^ exponent / (mantissa' * 2 ^ exponent')) bits ∧
      (pack double (div double (.finite .positive mantissa exponent some)
        (.finite .positive mantissa' exponent' some'))).toNat = bits := by
  have unit := unit_of_quotient exponent exponent' some some'
  unfold div divCore
  dsimp only
  generalize double.targetExponent
    (totalExponent mantissa exponent - totalExponent mantissa' exponent') = wanted at *
  generalize lowered : min (exponent - exponent') wanted = target
  generalize shift : (exponent - exponent' - target).toNat = places
  have reached : exponent = exponent' + target + places := by omega
  have divisor : (0 : ℚ) < mantissa' := by exact_mod_cast some'
  have exact : ((mantissa * 2 ^ places / mantissa' : ℕ) : ℚ) +
      (mantissa * 2 ^ places % mantissa' : ℕ) / mantissa' = mantissa * 2 ^ places / mantissa' := by
    rw [eq_div_iff divisor.ne', add_mul, div_mul_cancel₀ _ divisor.ne']
    exact_mod_cast Nat.div_add_mod' (mantissa * 2 ^ places) mantissa'
  have value : mantissa * 2 ^ places / mantissa' * 2 ^ target =
      mantissa * (2 : ℚ) ^ exponent / (mantissa' * 2 ^ exponent') := by
    rw [reached, zpow_add₀ two_ne_zero, zpow_add₀ two_ne_zero, zpow_natCast]
    field_simp
  have described := describes_fraction (mantissa * 2 ^ places / mantissa')
    (Nat.mod_lt (mantissa * 2 ^ places) some')
  rw [exact] at described
  rw [← value] at unit ⊢
  rw [Nat.shiftLeft_eq]
  obtain ⟨bits, rounds, packed⟩ := roundsTo_roundWithAccuracy .positive described (by positivity)
    (by omega : target ≤ _)
  refine ⟨bits, rounds, packed.trans ?_⟩
  exact (Nat.zero_add bits : 0 * 2 ^ 63 + bits = bits)

end Encoding
end DecisionTree
