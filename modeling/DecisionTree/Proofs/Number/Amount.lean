import DecisionTree.Validation
import DecisionTree.Proofs.Number.Finite
import DecisionTree.Proofs.Number.Operations
import DecisionTree.Proofs.Number.Shortest

namespace DecisionTree

namespace Number

open Decimal (infinityBits)
open DecisionTree.Dyadic (magnitude)
open Encoding
open Float.Model (UnpackedFloat)
open Float.Model.UnpackedFloat (Sign pack)

variable {a b x : Float} {sign : Sign}

abbrev bitsOf (x : Float) : BitVec 64 :=
  x.toBits.toBitVec

theorem eq_of_pack (same : bitsOf x = pack double a.toModel.unpack) : x = a := by
  have bits : x.toBits = a.toBits :=
    UInt64.eq_of_toBitVec_eq (same.trans (pack_unpack a.toModel.valid))
  rw [← ofBits_toBits x, bits, ofBits_toBits]

/-- What is not a number stays so in a sum. -/
theorem isNaN_add (nan : a.isNaN = true ∨ b.isNaN = true) : (a + b).isNaN = true := by
  have sum : UnpackedFloat.add double a.toModel.unpack b.toModel.unpack = .notANumber := by
    rcases nan with first | second
    · rw [unpack_of_isNaN first]
      rfl
    · rw [unpack_of_isNaN second]
      cases a.toModel.unpack <;> rfl
  change (Float.ofModel (.pack (UnpackedFloat.add double _ _))).isNaN = true
  rw [sum]
  decide

/-- A number from zero up; zero itself may have either sign. -/
structure IsAmount (x : Float) : Prop where
  bound : magnitude x ≤ infinityBits
  sign : 0 < magnitude x → signOf (bitsOf x) = .positive

namespace IsAmount

theorem of_bits {n : ℕ} (bits : (bitsOf x).toNat = n) (bound : n ≤ infinityBits) :
    IsAmount x ∧ magnitude x = n := by
  have small : (bitsOf x).toNat % 2 ^ 63 = n := by
    unfold infinityBits at bound
    omega
  have same : magnitude x = n := small
  refine ⟨⟨same ▸ bound, fun _ => signOf_of_lt ?_⟩, same⟩
  omega

theorem of_zero (zero : magnitude x = 0) : IsAmount x :=
  ⟨zero ▸ Nat.zero_le _, fun some => absurd zero some.ne'⟩

theorem unpack_zero (zero : magnitude x = 0) : x.toModel.unpack = .zero (signOf (bitsOf x)) :=
  unpack_of_zero zero

theorem unpack_finite (amount : IsAmount x) (some : 0 < magnitude x)
    (finite : magnitude x < infinityBits) :
    x.toModel.unpack = .finite .positive (Dyadic.ofMagnitude (magnitude x)).mantissa
      (Dyadic.ofMagnitude (magnitude x)).exponent (Dyadic.mantissa_pos_of_magnitude some) :=
  (unpack_of_finite some finite).trans (finite_congr (amount.sign some) rfl rfl)

theorem unpack_infinite (amount : IsAmount x) (infinite : magnitude x = infinityBits) :
    x.toModel.unpack = .infinity .positive := by
  have some : 0 < magnitude x := by
    rw [infinite]
    decide
  exact (unpack_of_infinite infinite).trans (congrArg _ (amount.sign some))

/-- An amount is zero, positive and finite, or infinite. -/
theorem trichotomy (amount : IsAmount x) :
    magnitude x = 0 ∨ 0 < magnitude x ∧ magnitude x < infinityBits ∨
      magnitude x = infinityBits := by
  have := amount.bound
  omega

/-- Amounts compare as their magnitude bits do. -/
theorem compare_eq (first : IsAmount a) (second : IsAmount b) :
    a.toModel.unpack.compare b.toModel.unpack = some (compare (magnitude a) (magnitude b)) := by
  rcases first.trichotomy with zero | ⟨some, finite⟩ | infinite
  · rw [unpack_zero zero, zero]
    rcases second.trichotomy with zero' | ⟨some', finite'⟩ | infinite'
    · rw [unpack_zero zero', zero']
      rfl
    · rw [second.unpack_finite some' finite', compare_lt_iff_lt.mpr some']
      rfl
    · rw [second.unpack_infinite infinite', infinite']
      rfl
  · rw [first.unpack_finite some finite]
    rcases second.trichotomy with zero' | ⟨some', finite'⟩ | infinite'
    · rw [unpack_zero zero', zero', compare_gt_iff_gt.mpr some]
      rfl
    · rw [second.unpack_finite some' finite']
      exact congrArg Option.some (Dyadic.compare_ofMagnitude ..)
    · rw [second.unpack_infinite infinite', infinite', compare_lt_iff_lt.mpr finite]
      rfl
  · rw [first.unpack_infinite infinite, infinite]
    rcases second.trichotomy with zero' | ⟨some', finite'⟩ | infinite'
    · rw [unpack_zero zero', zero']
      rfl
    · rw [second.unpack_finite some' finite', compare_gt_iff_gt.mpr finite']
      rfl
    · rw [second.unpack_infinite infinite', infinite']
      rfl

theorem le_iff (first : IsAmount a) (second : IsAmount b) : a ≤ b ↔ magnitude a ≤ magnitude b := by
  rw [le_iff_compare, first.compare_eq second]
  simp [Nat.isLE_compare]

theorem lt_iff (first : IsAmount a) (second : IsAmount b) : a < b ↔ magnitude a < magnitude b := by
  rw [lt_iff_compare, first.compare_eq second, Option.some_inj, compare_lt_iff_lt]

end IsAmount

/-- A double that is not negative is an amount, or no number at all. -/
theorem isAmount_of_not_lt (least : ¬x < 0) (number : ¬x.isNaN = true) : IsAmount x := by
  rw [isNaN_iff] at number
  refine ⟨Nat.le_of_not_lt number, fun some => ?_⟩
  cases sign : signOf (bitsOf x) with
  | positive => rfl
  | negative =>
    refine absurd (lt_iff_compare.mpr ?_) least
    rcases (Nat.le_of_not_lt number).lt_or_eq with finite | infinite
    · have below : x.toModel.unpack =
          .finite .negative _ _ (Dyadic.mantissa_pos_of_magnitude some) :=
        (unpack_of_finite some finite).trans (finite_congr sign rfl rfl)
      rw [below]
      rfl
    · have below : x.toModel.unpack = .infinity .negative :=
        (unpack_of_infinite infinite).trans (congrArg _ sign)
      rw [below]
      rfl

theorem isAmount_zero : IsAmount 0 :=
  .of_zero rfl

private theorem isAmount_one : IsAmount 1 :=
  (IsAmount.of_bits (x := 1) rfl (by decide)).1

/-- The amounts up to 1 are the probabilities. -/
theorem IsAmount.isProbability_iff (amount : IsAmount x) :
    isProbability x = true ↔ magnitude x ≤ magnitude 1 := by
  unfold isProbability
  rw [Bool.and_eq_true, decide_eq_true_eq, decide_eq_true_eq, isAmount_zero.le_iff amount,
    amount.le_iff isAmount_one]
  exact and_iff_right (Nat.zero_le _)

/-- The value of the magnitude bits. -/
def worth (x : Float) : ℚ :=
  (Dyadic.ofMagnitude (magnitude x)).value

theorem worth_pos (some : 0 < magnitude x) : 0 < worth x := by
  have mantissa := Dyadic.mantissa_pos_of_magnitude some
  unfold worth Dyadic.value
  positivity

theorem roundsTo_worth (some : 0 < magnitude x) (finite : magnitude x < infinityBits) :
    RoundsTo (worth x) (magnitude x) :=
  Dyadic.roundsTo_of_covers some finite (Dyadic.covers_value _)

theorem worth_mono (some : 0 < magnitude a) (finite : magnitude b < infinityBits)
    (ascending : magnitude a ≤ magnitude b) : worth a ≤ worth b := by
  by_contra less
  have less := lt_of_not_ge less
  have rounds := roundsTo_worth some (ascending.trans_lt finite)
  have rounds' := roundsTo_worth (some.trans_le ascending) finite
  have descending := rounds'.mono rounds (worth_pos (some.trans_le ascending)) less.le
  have same : worth a = worth b :=
    congrArg (fun bits => (Dyadic.ofMagnitude bits).value) (ascending.antisymm descending)
  exact less.ne same.symm

private theorem worth_one : worth 1 = 1 := by
  have parts : Dyadic.ofMagnitude (magnitude 1) = ⟨2 ^ 52, -52, true⟩ := by decide
  unfold worth Dyadic.value
  rw [parts]
  norm_num

theorem bitsOf_add (a b : Float) :
    bitsOf (a + b) =
      pack double (UnpackedFloat.add double a.toModel.unpack b.toModel.unpack) := rfl

theorem bitsOf_div (a b : Float) :
    bitsOf (a / b) =
      pack double (UnpackedFloat.div double a.toModel.unpack b.toModel.unpack) := rfl

namespace IsAmount

theorem of_pack_zero (bits : bitsOf x = pack double (.zero sign)) :
    IsAmount x ∧ magnitude x = 0 := by
  have whole : (bitsOf x).toNat = sign.toBitVec.toNat * 2 ^ 63 := by
    rw [bits]
    exact toNat_pack_zero
  have zero : magnitude x = (bitsOf x).toNat % 2 ^ 63 := rfl
  have none : magnitude x = 0 := by omega
  exact ⟨of_zero none, none⟩

private theorem of_pack_infinity (bits : bitsOf x = pack double (.infinity .positive)) :
    IsAmount x ∧ magnitude x = infinityBits := by
  have unsigned : Sign.positive.toBitVec.toNat = 0 := rfl
  have whole : (bitsOf x).toNat = Sign.positive.toBitVec.toNat * 2 ^ 63 + infinityBits := by
    rw [bits]
    exact toNat_packedInfinity
  rw [unsigned, Nat.zero_mul, Nat.zero_add] at whole
  exact of_bits whole le_rfl

private theorem add_infinite (first : IsAmount a) (second : IsAmount b)
    (infinite : magnitude a = infinityBits ∨ magnitude b = infinityBits) :
    UnpackedFloat.add double a.toModel.unpack b.toModel.unpack = .infinity .positive := by
  rcases infinite with infinite | infinite
  · rw [first.unpack_infinite infinite]
    rcases second.trichotomy with zero | ⟨some, finite⟩ | infinite'
    · rw [unpack_zero zero]
      rfl
    · rw [second.unpack_finite some finite]
      rfl
    · rw [second.unpack_infinite infinite']
      rfl
  · rw [second.unpack_infinite infinite]
    rcases first.trichotomy with zero | ⟨some, finite⟩ | infinite'
    · rw [unpack_zero zero]
      rfl
    · rw [first.unpack_finite some finite]
      rfl
    · rw [first.unpack_infinite infinite']
      rfl

private theorem add_zeros (zero : magnitude a = 0) (zero' : magnitude b = 0) :
    IsAmount (a + b) := by
  obtain ⟨sign, sum⟩ : ∃ sign,
      UnpackedFloat.add double a.toModel.unpack b.toModel.unpack = .zero sign := by
    rw [unpack_zero zero, unpack_zero zero']
    cases signOf (bitsOf a) <;> cases signOf (bitsOf b) <;> exact ⟨_, rfl⟩
  exact (of_pack_zero ((bitsOf_add a b).trans (congrArg _ sum))).1

private theorem zero_add (zero : magnitude a = 0) (second : IsAmount b) (some : 0 < magnitude b)
    (finite : magnitude b < infinityBits) : a + b = b := by
  have sum : UnpackedFloat.add double a.toModel.unpack b.toModel.unpack = b.toModel.unpack := by
    rw [unpack_zero zero, second.unpack_finite some finite]
    rfl
  exact eq_of_pack ((bitsOf_add a b).trans (congrArg _ sum))

private theorem add_zero (first : IsAmount a) (some : 0 < magnitude a)
    (finite : magnitude a < infinityBits) (zero : magnitude b = 0) : a + b = a := by
  have sum : UnpackedFloat.add double a.toModel.unpack b.toModel.unpack = a.toModel.unpack := by
    rw [unpack_zero zero, first.unpack_finite some finite]
    rfl
  exact eq_of_pack ((bitsOf_add a b).trans (congrArg _ sum))

theorem roundsTo_add (first : IsAmount a) (second : IsAmount b)
    (some : 0 < magnitude a) (some' : 0 < magnitude b)
    (finite : magnitude a < infinityBits) (finite' : magnitude b < infinityBits) :
    RoundsTo (worth a + worth b) (bitsOf (a + b)).toNat := by
  rw [bitsOf_add, first.unpack_finite some finite, second.unpack_finite some' finite']
  obtain ⟨bits, rounds, packed⟩ := Encoding.roundsTo_add
  rw [packed]
  exact rounds

/-- A sum of amounts is at least each of them. -/
theorem add (first : IsAmount a) (second : IsAmount b) :
    IsAmount (a + b) ∧ magnitude a ≤ magnitude (a + b) ∧ magnitude b ≤ magnitude (a + b) := by
  by_cases infinite : magnitude a = infinityBits ∨ magnitude b = infinityBits
  · obtain ⟨amount, sum⟩ := of_pack_infinity
      ((bitsOf_add a b).trans (congrArg _ (first.add_infinite second infinite)))
    rw [sum]
    exact ⟨amount, first.bound, second.bound⟩
  · obtain ⟨bounded, bounded'⟩ := not_or.mp infinite
    have finite := lt_of_le_of_ne first.bound bounded
    have finite' := lt_of_le_of_ne second.bound bounded'
    rcases Nat.eq_zero_or_pos (magnitude a) with zero | some <;>
      rcases Nat.eq_zero_or_pos (magnitude b) with zero' | some'
    · exact ⟨add_zeros zero zero', zero ▸ Nat.zero_le _, zero' ▸ Nat.zero_le _⟩
    · rw [second.zero_add zero some' finite']
      exact ⟨second, zero ▸ Nat.zero_le _, le_rfl⟩
    · rw [first.add_zero some finite zero']
      exact ⟨first, le_rfl, zero' ▸ Nat.zero_le _⟩
    · have rounds := first.roundsTo_add second some some' finite finite'
      obtain ⟨amount, sum⟩ := of_bits rfl rounds.bound
      have positive := worth_pos some
      have positive' := worth_pos some'
      rw [sum]
      exact ⟨amount, (roundsTo_worth some finite).mono rounds positive (by linarith),
        (roundsTo_worth some' finite').mono rounds positive' (by linarith)⟩

theorem roundsTo_div (first : IsAmount a) (second : IsAmount b)
    (some : 0 < magnitude a) (some' : 0 < magnitude b)
    (finite : magnitude a < infinityBits) (finite' : magnitude b < infinityBits) :
    RoundsTo (worth a / worth b) (bitsOf (a / b)).toNat := by
  rw [bitsOf_div, first.unpack_finite some finite, second.unpack_finite some' finite']
  obtain ⟨bits, rounds, packed⟩ := Encoding.roundsTo_div
  rw [packed]
  exact rounds

/-- An amount over one that is no less is at most 1. -/
theorem div (first : IsAmount a) (second : IsAmount b) (some : 0 < magnitude b)
    (part : magnitude a ≤ magnitude b) (finite : magnitude a < infinityBits) :
    IsAmount (a / b) ∧ magnitude (a / b) ≤ magnitude 1 := by
  by_cases vanishes : magnitude a = 0 ∨ magnitude b = infinityBits
  · obtain ⟨sign, quotient⟩ : ∃ sign,
        UnpackedFloat.div double a.toModel.unpack b.toModel.unpack = .zero sign := by
      rcases second.trichotomy with zero' | ⟨-, finite'⟩ | infinite'
      · exact absurd zero' some.ne'
      · rw [unpack_zero (vanishes.resolve_right finite'.ne), second.unpack_finite some finite']
        exact ⟨_, rfl⟩
      · rw [second.unpack_infinite infinite']
        rcases Nat.eq_zero_or_pos (magnitude a) with zero | some
        · rw [unpack_zero zero]
          exact ⟨_, rfl⟩
        · rw [first.unpack_finite some finite]
          exact ⟨_, rfl⟩
    obtain ⟨amount, zero⟩ := of_pack_zero ((bitsOf_div a b).trans (congrArg _ quotient))
    exact ⟨amount, zero ▸ Nat.zero_le _⟩
  · obtain ⟨nonzero, bounded⟩ := not_or.mp vanishes
    have positive : 0 < magnitude a := Nat.pos_of_ne_zero nonzero
    have less : magnitude b < infinityBits := lt_of_le_of_ne second.bound bounded
    have rounds := first.roundsTo_div second positive some finite less
    have one : RoundsTo 1 (magnitude 1) := by
      rw [← worth_one]
      exact roundsTo_worth (by decide) (by decide)
    obtain ⟨amount, quotient⟩ := of_bits rfl rounds.bound
    rw [quotient]
    have divided := worth_pos positive
    have divisor := worth_pos some
    exact ⟨amount, rounds.mono one (by positivity)
      ((div_le_one divisor).mpr (worth_mono positive less part))⟩

end IsAmount

/-- Infinity has no share of infinity. -/
theorem isNaN_div_infinite (first : IsAmount a) (second : IsAmount b)
    (infinite : magnitude a = infinityBits) (infinite' : magnitude b = infinityBits) :
    (a / b).isNaN = true := by
  change (Float.ofModel (.pack (UnpackedFloat.div double _ _))).isNaN = true
  rw [first.unpack_infinite infinite, second.unpack_infinite infinite']
  decide

end Number
end DecisionTree
