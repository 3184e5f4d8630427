import DecisionTree.Proofs.Pmml.Predicate
import DecisionTree.Proofs.Predicate.Evaluation

/-!
Why a predicate fails. No connective has errors of its own, and neither have constants, membership
and presence tests; so an error of a predicate is that of a comparison somewhere in it, whose field
has a value. In a well-formed predicate every comparison has its literal, and what remains is an
ordering test with a side that is no finite number.
-/

namespace DecisionTree

/-- The operators that compare numbers by their order. -/
def Comparison.orderings : List Comparison :=
  [.lessThan, .lessOrEqual, .greaterThan, .greaterOrEqual]

variable {field : String} {value : Value} {operator : Comparison} {literal : Option String}
  {record : Record} {predicate : Predicate} {error : EvaluationError}

theorem Comparison.mem_orderings_iff :
    operator ∈ orderings ↔ ∃ order, operator.order? = some order := by
  cases operator <;> simp [orderings, order?]

theorem numericOperands_eq_error_iff {literal : String} :
    numericOperands field value literal = .error error ↔
      (value.number? = none ∨ Number.finite? literal = none) ∧
        error = .notNumeric field value.display literal := by
  rw [eq_comm (a := error)]
  unfold numericOperands
  cases value.number? <;> cases Number.finite? literal <;> simp

theorem Comparison.test_of_order {order : Float → Float → Bool}
    (ordering : operator.order? = some order) (text : String) :
    operator.test field value (some text) =
      (numericOperands field value text).map fun sides => order sides.1 sides.2 := by
  unfold test
  rw [ordering]
  rfl

/-- A comparison fails for want of a literal, or because it orders what is no finite number. -/
theorem Comparison.test_eq_error_iff :
    operator.test field value literal = .error error ↔
      (literal = none ∧ error = .missingValue field operator) ∨
        ∃ text, literal = some text ∧ operator ∈ Comparison.orderings ∧
          (value.number? = none ∨ Number.finite? text = none) ∧
          error = .notNumeric field value.display text := by
  simp only [mem_orderings_iff]
  cases literal with
  | none =>
    rw [eq_comm (a := error)]
    simp [test]
  | some text =>
    cases ordering : operator.order? with
    | none => simp [test, ordering]
    | some order =>
      rw [test_of_order ordering, Sequence.map_eq_error_iff, numericOperands_eq_error_iff]
      simp

namespace Predicate

/-- The part of a predicate that an error comes from: a comparison that fails with this error for
the value that the record has in its field. -/
inductive FailsIn (record : Record) (error : EvaluationError) : Predicate → Prop
  | compare {field : String} {operator : Comparison} {literal : Option String} {value : Value}
      (tested : operator.requiresLiteral) (present : record.get? field = some value)
      (failure : operator.test field value literal = .error error) :
      FailsIn record error (.compare field operator literal)

private theorem failsIn_of_evaluateComparison
    (failed : evaluateComparison field operator literal record = .error error) :
    FailsIn record error (.compare field operator literal) := by
  by_cases tested : operator.requiresLiteral
  · cases found : record.get? field with
    | none =>
      rw [evaluateComparison_of_none tested found] at failed
      cases failed
    | some value =>
      rw [evaluateComparison_of_some tested found] at failed
      exact .compare tested found (Sequence.map_eq_error_iff.mp failed)
  · cases operator with
    | isMissing | isNotMissing => cases failed
    | _ => exact absurd rfl tested

/-- A surrogate has the error of one of its operands. -/
theorem exists_of_evaluateFirst_eq_error {operands : List Predicate}
    (failed : evaluateFirst record operands = .error error) :
    ∃ operand ∈ operands, operand.evaluate record = .error error := by
  induction operands with
  | nil => cases failed
  | cons operand rest ih =>
    by_cases undecided : operand.evaluate record = .ok .unknown
    · rw [evaluateFirst_of_unknown undecided] at failed
      obtain ⟨later, member, failure⟩ := ih failed
      exact ⟨later, List.mem_cons_of_mem _ member, failure⟩
    · rw [evaluateFirst_of_decided undecided] at failed
      exact ⟨operand, List.mem_cons_self, failed⟩

/-- A compound has the error of one of its operands. -/
theorem exists_of_compound_eq_error {operator : Connective} {operands : List Predicate}
    (failed : (compound operator operands).evaluate record = .error error) :
    ∃ operand ∈ operands, operand.evaluate record = .error error := by
  by_cases gathers : operator = .surrogate
  · subst gathers
    rw [evaluate_surrogate] at failed
    exact exists_of_evaluateFirst_eq_error failed
  · rw [evaluate_compound gathers, Sequence.map_eq_error_iff] at failed
    obtain ⟨_, operand, _, rfl, _, failure⟩ := Sequence.mapM_eq_error_iff.mp failed
    exact ⟨operand, by simp, failure⟩

/-- Every error of a predicate is the error of a comparison in it. -/
theorem exists_failsIn (failed : predicate.evaluate record = .error error) :
    ∃ part ∈ predicate.parts, FailsIn record error part := by
  induction predicate using Predicate.induction with
  | always | never => cases failed
  | compare field operator literal =>
    simp only [evaluate] at failed
    exact ⟨_, self_mem_parts _, failsIn_of_evaluateComparison failed⟩
  | member field operator literals => simp [evaluate] at failed
  | compound operator operands ih =>
    obtain ⟨operand, member, failure⟩ := exists_of_compound_eq_error failed
    obtain ⟨part, inside, fails⟩ := ih operand member failure
    exact ⟨part, List.mem_cons_of_mem _ (mem_partsOfAll.mpr ⟨operand, member, inside⟩), fails⟩

/-- An ordering test of a field that has a value, where the value or the literal is no finite
number; with the error that says so. -/
inductive Unordered (record : Record) : EvaluationError → Predicate → Prop
  | compare {field literal : String} {operator : Comparison} {value : Value}
      (ordering : operator ∈ Comparison.orderings) (present : record.get? field = some value)
      (apart : value.number? = none ∨ Number.finite? literal = none) :
      Unordered record (.notNumeric field value.display literal)
        (.compare field operator (some literal))

private theorem FailsIn.unordered (proper : predicate.isProper)
    (fails : FailsIn record error predicate) :
    Unordered record error predicate := by
  cases fails with
  | compare tested present failure =>
    obtain ⟨rfl, _⟩ | ⟨text, rfl, ordering, apart, rfl⟩ := Comparison.test_eq_error_iff.mp failure
    · simp [isProper, tested] at proper
    · exact .compare ordering present apart

/-- All that a well-formed predicate can fail for is an ordering test without two finite numbers. -/
theorem WellFormed.exists_unordered (formed : predicate.WellFormed)
    (failed : predicate.evaluate record = .error error) :
    ∃ part ∈ predicate.parts, Unordered record error part := by
  obtain ⟨part, inside, fails⟩ := exists_failsIn failed
  exact ⟨part, inside, fails.unordered (formed part inside)⟩

end Predicate
end DecisionTree
