import DecisionTree.Proofs.Predicate.Kleene
import DecisionTree.Proofs.Truth

/-!
The algebra of compounds. What a compound evaluates to is settled by the outcomes of its operands,
errors among them. Unless it is an exclusive disjunction, a front and the rest of them may be resolved
first; so operands that come to the same stand for one another in place, whether nested, repeated or
on their own. And unless it is a surrogate, the order of operands only chooses among their errors.
-/

namespace DecisionTree

namespace Connective

variable {operator : Connective}

theorem combine_singleton (operator : Connective) (truth : Truth) :
    operator.combine [truth] = truth := by
  cases operator <;> cases truth <;> rfl

theorem combine_twice (divisible : operator ≠ .xor) (truth : Truth) :
    operator.combine [truth, truth] = truth := by
  cases operator with
  | xor => exact absurd rfl divisible
  | and | or | surrogate => cases truth <;> rfl

theorem combine_append (divisible : operator ≠ .xor) (gathers : operator ≠ .surrogate)
    (first second : List Truth) :
    operator.combine (first ++ second) =
      operator.combine [operator.combine first, operator.combine second] := by
  cases operator with
  | and => exact Truth.all_append first second
  | or => exact Truth.any_append first second
  | xor => exact absurd rfl divisible
  | surrogate => exact absurd rfl gathers

theorem combine_perm (gathers : operator ≠ .surrogate) {first second : List Truth}
    (order : first.Perm second) : operator.combine first = operator.combine second := by
  cases operator with
  | and => exact Truth.all_perm order
  | or => exact Truth.any_perm order
  | xor => exact Truth.exactlyOne_perm order
  | surrogate => exact absurd rfl gathers

/-- What a connective makes of the outcomes of its operands. -/
def resolve (operator : Connective) (outcomes : List (Except EvaluationError Truth)) :
    Except EvaluationError Truth :=
  match operator with
  | .surrogate => (outcomes.find? (· != .ok .unknown)).getD (.ok .unknown)
  | operator => (outcomes.mapM id).map operator.combine

variable {first second before after : List (Except EvaluationError Truth)}

theorem resolve_of_gathers (gathers : operator ≠ .surrogate)
    (outcomes : List (Except EvaluationError Truth)) :
    operator.resolve outcomes = (outcomes.mapM id).map operator.combine := by
  cases operator with
  | surrogate => exact absurd rfl gathers
  | and | or | xor => rfl

theorem resolve_singleton (operator : Connective) (outcome : Except EvaluationError Truth) :
    operator.resolve [outcome] = outcome := by
  by_cases gathers : operator = .surrogate
  · subst gathers
    by_cases undecided : outcome = .ok .unknown <;> simp [resolve, undecided]
  · rw [resolve_of_gathers gathers]
    cases outcome with
    | error error => rfl
    | ok truth => exact congrArg Except.ok (combine_singleton operator truth)

theorem resolve_twice (divisible : operator ≠ .xor) (outcome : Except EvaluationError Truth) :
    operator.resolve [outcome, outcome] = outcome := by
  by_cases gathers : operator = .surrogate
  · subst gathers
    by_cases undecided : outcome = .ok .unknown <;> simp [resolve, undecided]
  · rw [resolve_of_gathers gathers]
    cases outcome with
    | error error => rfl
    | ok truth => exact congrArg Except.ok (combine_twice divisible truth)

/-- A front and the rest of the outcomes may be resolved first. -/
theorem resolve_append (divisible : operator ≠ .xor)
    (first second : List (Except EvaluationError Truth)) :
    operator.resolve (first ++ second) =
      operator.resolve [operator.resolve first, operator.resolve second] := by
  by_cases gathers : operator = .surrogate
  · subst gathers
    simp only [resolve, List.find?_append]
    cases front : first.find? (· != .ok .unknown) with
    | some outcome =>
      have decided := List.find?_some front
      simp [decided]
    | none =>
      cases rest : second.find? (· != .ok .unknown) with
      | some outcome =>
        have decided := List.find?_some rest
        simp [decided]
      | none => simp
  · rw [resolve_of_gathers gathers, resolve_of_gathers gathers, resolve_of_gathers gathers,
      resolve_of_gathers gathers, List.mapM_append]
    cases first.mapM id with
    | error error => rfl
    | ok front =>
      cases second.mapM id with
      | error error => rfl
      | ok rest => exact congrArg Except.ok (combine_append divisible gathers front rest)

/-- Outcomes that resolve alike may stand for one another among others. -/
theorem resolve_replace (divisible : operator ≠ .xor)
    (same : operator.resolve first = operator.resolve second) :
    operator.resolve (before ++ first ++ after) = operator.resolve (before ++ second ++ after) := by
  rw [resolve_append divisible, resolve_append divisible before, same,
    ← resolve_append divisible before, ← resolve_append divisible]

/-- In another order the outcomes resolve to the same truth, or to an error again. -/
theorem resolve_perm (gathers : operator ≠ .surrogate) (order : first.Perm second) :
    (∃ truth, operator.resolve first = .ok truth ∧ operator.resolve second = .ok truth) ∨
      ∃ error other, operator.resolve first = .error error ∧
        operator.resolve second = .error other := by
  rw [resolve_of_gathers gathers, resolve_of_gathers gathers]
  cases evaluated : first.mapM id with
  | ok truths =>
    obtain ⟨others, evaluated', same⟩ := Sequence.mapM_perm order evaluated
    rw [evaluated']
    exact .inl ⟨_, rfl, congrArg Except.ok (combine_perm gathers same).symm⟩
  | error error =>
    cases evaluated' : second.mapM id with
    | error other => exact .inr ⟨error, other, rfl, rfl⟩
    | ok others =>
      obtain ⟨_, success, _⟩ := Sequence.mapM_perm order.symm evaluated'
      cases evaluated.symm.trans success

end Connective

namespace Predicate

variable {record : Record} {operator : Connective}

/-- The outcomes of the operands settle that of the compound. -/
theorem evaluate_compound_eq_resolve (operator : Connective) (operands : List Predicate) :
    (compound operator operands).evaluate record =
      operator.resolve (operands.map (evaluate record)) := by
  by_cases gathers : operator = .surrogate
  · subst gathers
    rw [evaluate_surrogate]
    induction operands with
    | nil => rfl
    | cons operand rest ih =>
      by_cases undecided : operand.evaluate record = .ok .unknown
      · rw [evaluateFirst_of_unknown undecided, ih]
        simp [Connective.resolve, undecided]
      · rw [evaluateFirst_of_decided undecided]
        simp [Connective.resolve, undecided]
  · rw [evaluate_compound gathers, Connective.resolve_of_gathers gathers, List.mapM_map]
    rfl

/-- Compounds obey the laws of their connectives, errors included. Operands of the same connective
are flattened, except for exclusive disjunctions; the order of operands does not matter but for the
choice among errors, except for surrogates; repetitions are idle, except for exclusive disjunctions;
and a compound with one operand is that operand. -/
theorem compound_laws (record : Record) :
    (∀ operator before inner after, operator ≠ .xor →
      (compound operator (before ++ compound operator inner :: after)).evaluate record =
        (compound operator (before ++ inner ++ after)).evaluate record) ∧
    (∀ operator first second, operator ≠ .surrogate → first.Perm second →
      (∃ truth, (compound operator first).evaluate record = .ok truth ∧
        (compound operator second).evaluate record = .ok truth) ∨
      ∃ error other, (compound operator first).evaluate record = .error error ∧
        (compound operator second).evaluate record = .error other) ∧
    (∀ operator before operand after, operator ≠ .xor →
      (compound operator (before ++ operand :: operand :: after)).evaluate record =
        (compound operator (before ++ operand :: after)).evaluate record) ∧
    ∀ operator operand, (compound operator [operand]).evaluate record =
      operand.evaluate record := by
  simp only [evaluate_compound_eq_resolve, List.map_append, List.map_cons, List.map_nil]
  refine ⟨?_, ?_, ?_, ?_⟩
  · intro operator before inner after divisible
    rw [List.append_cons]
    exact Connective.resolve_replace divisible (Connective.resolve_singleton operator _)
  · intro operator first second gathers order
    exact Connective.resolve_perm gathers (order.map _)
  · intro operator before operand after divisible
    have once : operator.resolve [operand.evaluate record, operand.evaluate record] =
        operator.resolve [operand.evaluate record] := by
      rw [Connective.resolve_twice divisible, Connective.resolve_singleton]
    simpa using Connective.resolve_replace divisible once
  · intro operator operand
    exact Connective.resolve_singleton operator _

/-- Whether a strength is above another number. -/
def stormy : Predicate :=
  .compare "wind" .greaterThan (some "24")

/-- The error of a nested operand is found in its place, and which of two errors is reported depends
on their order. -/
theorem compound_laws_windy :
    (compound .or [.always, compound .or [.never, windy], stormy]).evaluate breezy =
        (compound .or [.always, .never, windy, stormy]).evaluate breezy ∧
      (∃ error other, (compound .xor [windy, stormy]).evaluate breezy = .error error ∧
        (compound .xor [stormy, windy]).evaluate breezy = .error other) ∧
      (compound .surrogate [.compare "sky" .equal (some "clear"), windy, windy]).evaluate breezy =
        (compound .surrogate [.compare "sky" .equal (some "clear"), windy]).evaluate breezy := by
  obtain ⟨flat, order, repeated, -⟩ := compound_laws breezy
  refine ⟨flat .or [.always] [.never, windy] [stormy] (by decide), ?_,
    repeated .surrogate [.compare "sky" .equal (some "clear")] windy [] (by decide)⟩
  obtain ⟨truth, success, _⟩ | failed := order .xor _ _ (by decide) (.swap stormy windy [])
  · cases success
  · exact failed

/-- Why exclusive disjunctions are left out of the first and the third law: they count the operands
that hold. -/
example : (compound .xor [.always, compound .xor [.always, .always]]).evaluate breezy = .ok .yes ∧
    (compound .xor [.always, .always, .always]).evaluate breezy = .ok .no ∧
    (compound .xor [.always, .always]).evaluate breezy = .ok .no := by
  decide

/-- Why surrogates are left out of the second. -/
example : (compound .surrogate [.always, .never]).evaluate breezy = .ok .yes ∧
    (compound .surrogate [.never, .always]).evaluate breezy = .ok .no := by
  decide

end Predicate
end DecisionTree
