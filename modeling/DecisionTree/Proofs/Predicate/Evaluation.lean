import DecisionTree.Predicate.Evaluation
import DecisionTree.Proofs.Sequence

namespace DecisionTree

/-- What a connective makes of the outcomes of its operands when none of them fails. -/
def Connective.combine : Connective → List Truth → Truth
  | .and => Truth.all
  | .or => Truth.any
  | .xor => Truth.exactlyOne
  | .surrogate => Truth.firstKnown

namespace Predicate

variable {record : Record}

theorem evaluateComparison_of_some {field : String} {operator : Comparison} {value : Value}
    (tested : operator.requiresLiteral) (present : record.get? field = some value)
    (literal : Option String) :
    evaluateComparison field operator literal record =
      (operator.test field value literal).map Truth.ofBool := by
  unfold evaluateComparison
  rw [present]
  cases operator with
  | isMissing | isNotMissing => cases tested
  | _ => rfl

theorem evaluateComparison_of_none {field : String} {operator : Comparison}
    (tested : operator.requiresLiteral) (absent : record.get? field = none)
    (literal : Option String) :
    evaluateComparison field operator literal record = .ok .unknown := by
  unfold evaluateComparison
  rw [absent]
  cases operator with
  | isMissing | isNotMissing => cases tested
  | _ => rfl

theorem evaluateAll_eq_mapM (operands : List Predicate) :
    evaluateAll record operands = operands.mapM (evaluate record) := by
  induction operands with
  | nil => rfl
  | cons operand rest ih => rw [List.mapM_cons, ← ih, evaluateAll]

theorem evaluate_compound {operator : Connective} (gathers : operator ≠ .surrogate)
    (operands : List Predicate) :
    evaluate record (.compound operator operands) =
      (operands.mapM (evaluate record)).map operator.combine := by
  rw [← evaluateAll_eq_mapM]
  cases operator with
  | surrogate => exact absurd rfl gathers
  | and | or | xor => simp only [evaluate, Connective.combine]

theorem evaluate_surrogate (operands : List Predicate) :
    evaluate record (.compound .surrogate operands) = evaluateFirst record operands := by
  simp only [evaluate]

theorem evaluateFirst_of_unknown {operand : Predicate} {rest : List Predicate}
    (undecided : evaluate record operand = .ok .unknown) :
    evaluateFirst record (operand :: rest) = evaluateFirst record rest := by
  simp only [evaluateFirst, undecided]

theorem evaluateFirst_of_decided {operand : Predicate} {rest : List Predicate}
    (decided : evaluate record operand ≠ .ok .unknown) :
    evaluateFirst record (operand :: rest) = evaluate record operand := by
  rw [evaluateFirst]
  split
  · contradiction
  · rfl

end Predicate
end DecisionTree
