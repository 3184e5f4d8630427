import DecisionTree.Proofs.Predicate.Comparison

/-!
Evaluation sees values only through their normal forms. Records whose fields have the same normal
forms are told apart by no predicate: it has one outcome on both, or fails on both in the same test,
with errors that differ only in how they show the value.
-/

namespace DecisionTree

open Value (agrees_iff_normalForm)

/-- The two errors say the same but for the text of the field's value. -/
inductive EvaluationError.Alike : EvaluationError → EvaluationError → Prop
  | refl (error : EvaluationError) : Alike error error
  | notNumeric (field actual other expected : String) :
      Alike (.notNumeric field actual expected) (.notNumeric field other expected)

/-- One result, or errors that are alike. -/
inductive SameOutcome {α : Type} : Except EvaluationError α → Except EvaluationError α → Prop
  | ok (x : α) : SameOutcome (.ok x) (.ok x)
  | error {error other : EvaluationError} (alike : error.Alike other) :
      SameOutcome (.error error) (.error other)

namespace SameOutcome

variable {α β : Type} {first second : Except EvaluationError α}

theorem refl (outcome : Except EvaluationError α) : SameOutcome outcome outcome := by
  cases outcome with
  | ok x => exact .ok x
  | error error => exact .error (.refl error)

theorem map (same : SameOutcome first second) (change : α → β) :
    SameOutcome (first.map change) (second.map change) := by
  cases same with
  | ok x => exact .ok (change x)
  | error alike => exact .error alike

private theorem ok_or_error (same : SameOutcome first second) :
    (∃ x, first = .ok x ∧ second = .ok x) ∨
      ∃ error other, first = .error error ∧ second = .error other ∧ error.Alike other := by
  cases same with
  | ok x => exact .inl ⟨x, rfl, rfl⟩
  | error alike => exact .inr ⟨_, _, rfl, rfl, alike⟩

theorem eq_ok_iff (same : SameOutcome first second) {x : α} : first = .ok x ↔ second = .ok x := by
  cases same <;> simp

private theorem mapM {f g : β → Except EvaluationError α} {xs : List β}
    (each : ∀ x ∈ xs, SameOutcome (f x) (g x)) : SameOutcome (xs.mapM f) (xs.mapM g) := by
  induction xs with
  | nil => exact .ok []
  | cons x xs ih =>
    obtain ⟨head, tail⟩ := List.forall_mem_cons.mp each
    obtain ⟨y, success, success'⟩ | ⟨error, other, failure, failure', alike⟩ := head.ok_or_error
    · rw [Sequence.mapM_cons_of_ok success, Sequence.mapM_cons_of_ok success']
      exact (ih tail).map _
    · rw [Sequence.mapM_cons_of_error failure, Sequence.mapM_cons_of_error failure']
      exact .error alike

end SameOutcome

variable {value other : Value} {field : String}

theorem Value.agrees_congr (same : value.normalForm = other.normalForm) :
    value.agrees = other.agrees := by
  funext literal
  rw [Bool.eq_iff_iff, agrees_iff_normalForm, agrees_iff_normalForm, same]

theorem Comparison.test_congr (same : value.normalForm = other.normalForm) (operator : Comparison)
    (literal : Option String) :
    SameOutcome (operator.test field value literal) (operator.test field other literal) := by
  cases literal with
  | none => exact .error (.refl _)
  | some literal =>
    by_cases ordering : operator ∈ orderings
    · have tested := requiresLiteral_of_ordering ordering
      obtain ⟨a, b, number, number', exactly⟩ | ⟨label, label', -⟩ :=
        Value.normalForm_eq_iff.mp same
      · cases read : Number.finite? literal with
        | none =>
          rw [test_of_ordering ordering (.inr read), test_of_ordering ordering (.inr read)]
          exact .error (.notNumeric ..)
        | some c =>
          rw [test_of_numbers tested number read, test_of_numbers tested number' read, exactly]
          exact .ok _
      · rw [test_of_ordering ordering (.inl label), test_of_ordering ordering (.inl label')]
        exact .error (.notNumeric ..)
    · rw [test_of_unordered ordering, test_of_unordered ordering, Value.agrees_congr same]
      exact .ok _

namespace Predicate

/-- The same fields, with values of the same normal forms. -/
def Indistinguishable (first second : Record) : Prop :=
  ∀ field, (first.get? field).map Value.normalForm = (second.get? field).map Value.normalForm

variable {first second : Record}

theorem evaluateComparison_congr (same : Indistinguishable first second) (field : String)
    (operator : Comparison) (literal : Option String) :
    SameOutcome (evaluateComparison field operator literal first)
      (evaluateComparison field operator literal second) := by
  obtain ⟨absent, absent'⟩ | ⟨value, other, present, present', forms⟩ :=
    Sequence.none_or_some_of_map_eq (same field)
  · have equal : evaluateComparison field operator literal first =
        evaluateComparison field operator literal second := by
      simp only [evaluateComparison, absent, absent']
    exact equal ▸ .refl _
  · by_cases tested : operator.requiresLiteral
    · rw [evaluateComparison_of_some tested present, evaluateComparison_of_some tested present']
      exact (Comparison.test_congr forms operator literal).map Truth.ofBool
    · cases operator with
      | isMissing | isNotMissing =>
        simp only [evaluateComparison, present, present', Option.isNone_some, Option.isSome_some]
        exact .ok _
      | _ => exact absurd rfl tested

theorem evaluateMembership_congr (same : Indistinguishable first second) (field : String)
    (operator : Membership) (literals : List String) :
    evaluateMembership field operator literals first =
      evaluateMembership field operator literals second := by
  obtain ⟨absent, absent'⟩ | ⟨value, other, present, present', forms⟩ :=
    Sequence.none_or_some_of_map_eq (same field)
  · simp only [evaluateMembership, absent, absent']
  · simp only [evaluateMembership, present, present', Value.agrees_congr forms]

theorem evaluateFirst_congr {operands : List Predicate}
    (each : ∀ operand ∈ operands, SameOutcome (operand.evaluate first) (operand.evaluate second)) :
    SameOutcome (evaluateFirst first operands) (evaluateFirst second operands) := by
  induction operands with
  | nil => exact .refl _
  | cons operand rest ih =>
    obtain ⟨head, tail⟩ := List.forall_mem_cons.mp each
    by_cases undecided : operand.evaluate first = .ok .unknown
    · rw [evaluateFirst_of_unknown undecided,
        evaluateFirst_of_unknown (head.eq_ok_iff.mp undecided)]
      exact ih tail
    · rw [evaluateFirst_of_decided undecided,
        evaluateFirst_of_decided (mt head.eq_ok_iff.mpr undecided)]
      exact head

/-- Records that are indistinguishable field by field are so to every predicate. -/
theorem evaluate_congr (same : Indistinguishable first second) (predicate : Predicate) :
    SameOutcome (predicate.evaluate first) (predicate.evaluate second) := by
  induction predicate using Predicate.induction with
  | always | never => exact .refl _
  | compare field operator literal =>
    simp only [evaluate]
    exact evaluateComparison_congr same field operator literal
  | member field operator literals =>
    simp only [evaluate, evaluateMembership_congr same]
    exact .ok _
  | compound operator operands ih =>
    by_cases gathers : operator = .surrogate
    · subst gathers
      rw [evaluate_surrogate, evaluate_surrogate]
      exact evaluateFirst_congr ih
    · rw [evaluate_compound gathers, evaluate_compound gathers]
      exact (SameOutcome.mapM ih).map operator.combine

/-- Equality is that of normal forms, in which numbers are as they compare and a text is as what it
displays; on texts it is an equivalence. And evaluation asks for nothing else: records with the same
fields and normal forms have one outcome, or errors that say the same of the same field. -/
theorem evaluate_normalForm :
    (∀ (value : Value) (literal : String),
      value.agrees literal = true ↔ value.normalForm = (Value.text literal).normalForm) ∧
    (∀ (value other : Value) a b, value.number? = some a → other.number? = some b →
      (value.normalForm = other.normalForm ↔ (a == b) = true)) ∧
    (∀ value : Value, value.normalForm = (Value.text value.display).normalForm) ∧
    (Equivalence fun first second : String => (Value.text first).agrees second = true) ∧
    ∀ first second, Indistinguishable first second → ∀ predicate : Predicate,
      SameOutcome (predicate.evaluate first) (predicate.evaluate second) := by
  refine ⟨fun value literal => agrees_iff_normalForm, fun value other a b number number' => ?_,
    fun value => (Value.normalForm_text_display value).symm, Value.equivalence_agrees,
    fun first second same predicate => evaluate_congr same predicate⟩
  exact Value.normalForm_eq_iff_beq number number'

private theorem indistinguishable_insert {value other : Value}
    (forms : value.normalForm = other.normalForm)
    (record : Record) (field : String) :
    Indistinguishable (record.insert field value) (record.insert field other) := by
  intro name
  rw [Table.get?_insert, Table.get?_insert]
  split
  next => exact congrArg some forms
  next => rfl

/-- The two zeros are one number in every spelling, and what is not a number is a label. -/
theorem evaluate_normalForm_unmeasured :
    (Value.number (-0.0)).agrees " 0e5" = true ∧
      SameOutcome
        ((compare "wind" .lessThan (some "8")).evaluate
          (Table.empty.insert "wind" (.number (0.0 / 0.0))))
        ((compare "wind" .lessThan (some "8")).evaluate
          (Table.empty.insert "wind" (.text " NaN "))) := by
  obtain ⟨equality, numbers, -, -, congruence⟩ := evaluate_normalForm
  constructor
  · rw [equality]
    exact (numbers (.number (-0.0)) (.text " 0e5") (-0.0) 0 (by decide +kernel)
      (by decide +kernel)).mpr (by decide +kernel)
  · have forms : (Value.number (0.0 / 0.0)).normalForm = (Value.text " NaN ").normalForm := by
      decide +kernel
    exact congruence _ _ (indistinguishable_insert forms Table.empty "wind") _

end Predicate
end DecisionTree
