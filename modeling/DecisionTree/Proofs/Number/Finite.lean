import DecisionTree.Value

namespace DecisionTree

theorem Number.finite?_isFinite {text : String} {x : Float} (read : Number.finite? text = some x) :
    x.isFinite = true :=
  (Option.filter_eq_some_iff.mp read).2

theorem Value.number?_isFinite {value : Value} {x : Float} (number : value.number? = some x) :
    x.isFinite = true := by
  cases value with
  | number y =>
    simp only [Value.number?] at number
    exact (Option.filter_eq_some_iff.mp number).2
  | text content => exact Number.finite?_isFinite number

namespace Number

open Float.Model (UnpackedFloat)

private theorem exists_compare {first second : UnpackedFloat} (firstNumber : first.isNaN = false)
    (secondNumber : second.isNaN = false) :
    ∃ order, first.compare second = some order ∧ second.compare first = some order.swap := by
  cases first with
  | notANumber => cases firstNumber
  | infinity sign =>
    cases second with
    | notANumber => cases secondNumber
    | infinity other => cases sign <;> cases other <;> exact ⟨_, rfl, rfl⟩
    | zero | finite => cases sign <;> exact ⟨_, rfl, rfl⟩
  | zero =>
    cases second with
    | notANumber => cases secondNumber
    | infinity sign | finite sign => cases sign <;> exact ⟨_, rfl, rfl⟩
    | zero => exact ⟨.eq, rfl, rfl⟩
  | finite sign mantissa exponent =>
    cases second with
    | notANumber => cases secondNumber
    | infinity other => cases sign <;> cases other <;> exact ⟨_, rfl, rfl⟩
    | zero => cases sign <;> exact ⟨_, rfl, rfl⟩
    | finite other otherMantissa otherExponent =>
      have exponents := Std.OrientedOrd.eq_swap (a := otherExponent) (b := exponent)
      have mantissas := Std.OrientedOrd.eq_swap (a := otherMantissa) (b := mantissa)
      have magnitudes : (compare otherExponent exponent).then (compare otherMantissa mantissa) =
          ((compare exponent otherExponent).then (compare mantissa otherMantissa)).swap := by
        rw [exponents, mantissas, Ordering.swap_then]
      cases sign <;> cases other
      · exact ⟨_, rfl, congrArg (some <| Ordering.swap ·) magnitudes⟩
      · exact ⟨_, rfl, rfl⟩
      · exact ⟨_, rfl, rfl⟩
      · exact ⟨_, rfl, congrArg some magnitudes⟩

variable {a b : Float}

theorem lt_iff_compare : a < b ↔ a.toModel.unpack.compare b.toModel.unpack = some .lt := by
  change decide ((a.toModel.unpack.compare b.toModel.unpack == some .lt) = true) = true ↔ _
  simp only [beq_iff_eq, decide_eq_true_eq]

theorem le_iff_compare :
    a ≤ b ↔ ∃ order, a.toModel.unpack.compare b.toModel.unpack = some order ∧ order.isLE := by
  change decide ((a.toModel.unpack.compare b.toModel.unpack).any (·.isLE) = true) = true ↔ _
  simp only [decide_eq_true_eq, Option.any_eq_true]

/-- Of two numbers either the first is less, or the second is at most the first. -/
theorem lt_iff_not_le_of_number (first : a.isNaN = false) (second : b.isNaN = false) :
    a < b ↔ ¬b ≤ a := by
  obtain ⟨order, forward, backward⟩ := exists_compare first second
  rw [lt_iff_compare, le_iff_compare, forward, backward]
  cases order <;> simp

theorem unpack_of_isNaN (nan : a.isNaN = true) : a.toModel.unpack = .notANumber := by
  change a.toModel.unpack.isNaN = true at nan
  cases unpacked : a.toModel.unpack with
  | notANumber => rfl
  | infinity | zero | finite =>
    rw [unpacked] at nan
    cases nan

/-- What is not a number compares with nothing. -/
theorem compare_of_isNaN (nan : b.isNaN = true) :
    a.toModel.unpack.compare b.toModel.unpack = none := by
  rw [unpack_of_isNaN nan]
  cases a.toModel.unpack <;> rfl

theorem not_lt_of_isNaN (nan : b.isNaN = true) : ¬a < b := by
  rw [lt_iff_compare, compare_of_isNaN nan]
  nofun

theorem not_le_of_isNaN (nan : b.isNaN = true) : ¬a ≤ b := by
  rw [le_iff_compare, compare_of_isNaN nan]
  nofun

private theorem isNaN_of_isFinite (finite : a.isFinite = true) : a.isNaN = false := by
  revert finite
  change a.toModel.unpack.isFinite = true → a.toModel.unpack.isNaN = false
  cases a.toModel.unpack <;> first | exact fun _ => rfl | nofun

theorem lt_iff_not_le (first : a.isFinite = true) (second : b.isFinite = true) :
    a < b ↔ ¬b ≤ a :=
  lt_iff_not_le_of_number (isNaN_of_isFinite first) (isNaN_of_isFinite second)

end Number
end DecisionTree
