import DecisionTree.Proofs.Predicate.Failure
import DecisionTree.Proofs.Value

namespace DecisionTree

open Number (exactValue)

namespace Comparison

/-- Whether the operator holds between numbers in this order. -/
def admits : Comparison → Ordering → Bool
  | .equal => Ordering.isEq
  | .notEqual => Ordering.isNe
  | .lessThan => Ordering.isLT
  | .lessOrEqual => Ordering.isLE
  | .greaterThan => Ordering.isGT
  | .greaterOrEqual => Ordering.isGE
  | .isMissing | .isNotMissing => fun _ => false

variable {operator : Comparison} {field literal : String} {value : Value} {a b : Float}

/-- An ordering test answers from the order of the exact values. -/
theorem order?_eq_admits {order : Float → Float → Bool} (ordering : operator.order? = some order)
    (first : a.isFinite = true) (second : b.isFinite = true) :
    order a b = operator.admits (compare (exactValue a) (exactValue b)) := by
  rw [Bool.eq_iff_iff]
  cases operator with
  | equal | notEqual | isMissing | isNotMissing => cases ordering
  | lessThan =>
    cases ordering
    simp [admits, Number.lt_iff_exactValue first second, compare_lt_iff_lt]
  | lessOrEqual =>
    cases ordering
    simp [admits, Number.le_iff_exactValue first second, Ordering.isLE_iff_ne_gt,
      ← compare_le_iff_le]
  | greaterThan =>
    cases ordering
    simp [admits, Number.lt_iff_exactValue second first, compare_gt_iff_gt]
  | greaterOrEqual =>
    cases ordering
    simp [admits, Number.le_iff_exactValue second first, Ordering.isGE_iff_ne_lt,
      ← compare_ge_iff_ge]

theorem test_of_unordered (unordered : operator ∉ orderings) :
    operator.test field value (some literal) = .ok (value.agrees literal == (operator == .equal)) := by
  have none : operator.order? = none := by
    rw [Option.eq_none_iff_forall_ne_some]
    exact fun order ordering => unordered (mem_orderings_iff.mpr ⟨order, ordering⟩)
  simp only [test, none]

/-- Two finite numbers: every operator answers. -/
theorem test_of_numbers (tested : operator.requiresLiteral) (number : value.number? = some a)
    (read : Number.finite? literal = some b) :
    operator.test field value (some literal) =
      .ok (operator.admits (compare (exactValue a) (exactValue b))) := by
  have first := Value.number?_isFinite number
  have second := Number.finite?_isFinite read
  cases ordering : operator.order? with
  | some order =>
    rw [test_of_order ordering, numericOperands, number, read, ← order?_eq_admits ordering first second]
    rfl
  | none =>
    have agreed : value.agrees literal = (compare (exactValue a) (exactValue b)).isEq := by
      rw [Value.agrees, number, read, Bool.eq_iff_iff, Number.beq_iff_exactValue first second]
      simp
    simp only [test, ordering, agreed]
    cases operator with
    | equal | notEqual =>
      cases compare (exactValue a) (exactValue b) <;> rfl
    | isMissing | isNotMissing => cases tested
    | lessThan | lessOrEqual | greaterThan | greaterOrEqual => cases ordering

theorem requiresLiteral_of_ordering (ordering : operator ∈ orderings) :
    operator.requiresLiteral := by
  cases operator with
  | isMissing | isNotMissing => simp [orderings] at ordering
  | _ => rfl

/-- A side that is no finite number: the orderings fail. -/
theorem test_of_ordering (ordering : operator ∈ orderings)
    (apart : value.number? = none ∨ Number.finite? literal = none) :
    operator.test field value (some literal) = .error (.notNumeric field value.display literal) :=
  test_eq_error_iff.mpr (.inr ⟨literal, rfl, ordering, apart, rfl⟩)

end Comparison
end DecisionTree
