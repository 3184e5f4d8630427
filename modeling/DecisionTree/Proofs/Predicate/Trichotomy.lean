import DecisionTree.Proofs.Predicate.Comparison

/-!
The six comparisons of a field with a literal agree with one another. Without the field all are
unknown; where a side is no finite number the orderings fail together while equality still answers;
and between two numbers exactly one of less, equal and greater holds, from which the other three
follow.
-/

namespace DecisionTree

open Number (exactValue)

/-- The situations that a field and a literal can be in. -/
inductive Comparability where
  | missing
  | incomparable
  | comparable

def Comparability.of (record : Record) (field literal : String) : Comparability :=
  match record.get? field with
  | none => .missing
  | some value =>
    match value.number?, Number.finite? literal with
    | some _, some _ => .comparable
    | _, _ => .incomparable

variable {record : Record} {field literal : String} {value : Value} {a b : Float}
  {operator : Comparison}

namespace Comparability

theorem of_absent (absent : record.get? field = none) :
    Comparability.of record field literal = .missing := by
  rw [Comparability.of, absent]

theorem of_apart (present : record.get? field = some value)
    (apart : value.number? = none ∨ Number.finite? literal = none) :
    Comparability.of record field literal = .incomparable := by
  simp only [Comparability.of, present]
  rcases apart with label | label
  · rw [label]
  · rw [label]
    cases value.number? <;> rfl

theorem of_numbers (present : record.get? field = some value) (number : value.number? = some a)
    (read : Number.finite? literal = some b) :
    Comparability.of record field literal = .comparable := by
  simp only [Comparability.of, present, number, read]

end Comparability

namespace Predicate

/-- How a comparison of the field with the literal comes out. -/
abbrev compared (record : Record) (field literal : String) (operator : Comparison) :
    Except EvaluationError Truth :=
  (compare field operator (some literal)).evaluate record

/-- What the six comparisons of a field with a literal say together in each situation. -/
inductive Concord (record : Record) (field literal : String) : Comparability → Prop
  | missing (absent : record.get? field = none)
      (unknown : ∀ operator : Comparison, operator.requiresLiteral →
        compared record field literal operator = .ok .unknown) :
      Concord record field literal .missing
  | incomparable {value : Value} {same : Bool} (present : record.get? field = some value)
      (apart : value.number? = none ∨ Number.finite? literal = none)
      (refused : ∀ operator ∈ Comparison.orderings,
        compared record field literal operator = .error (.notNumeric field value.display literal))
      (equal : compared record field literal .equal = .ok (.ofBool same))
      (notEqual : compared record field literal .notEqual = .ok (.ofBool !same)) :
      Concord record field literal .incomparable
  | comparable {value : Value} {a b : Float} {less same greater : Bool}
      (present : record.get? field = some value) (number : value.number? = some a)
      (read : Number.finite? literal = some b)
      (lessThan : compared record field literal .lessThan = .ok (.ofBool less))
      (equal : compared record field literal .equal = .ok (.ofBool same))
      (greaterThan : compared record field literal .greaterThan = .ok (.ofBool greater))
      (less_iff : less ↔ exactValue a < exactValue b)
      (same_iff : same ↔ exactValue a = exactValue b)
      (greater_iff : greater ↔ exactValue a > exactValue b)
      (one : [less, same, greater].count true = 1)
      (lessOrEqual : compared record field literal .lessOrEqual = .ok (.ofBool (less || same)))
      (greaterOrEqual :
        compared record field literal .greaterOrEqual = .ok (.ofBool (greater || same)))
      (notEqual : compared record field literal .notEqual = .ok (.ofBool !same)) :
      Concord record field literal .comparable

theorem compared_of_none (tested : operator.requiresLiteral) (absent : record.get? field = none) :
    compared record field literal operator = .ok .unknown := by
  simp only [compared, evaluate]
  exact evaluateComparison_of_none tested absent _

theorem compared_of_some (tested : operator.requiresLiteral)
    (present : record.get? field = some value) :
    compared record field literal operator =
      (operator.test field value (some literal)).map Truth.ofBool := by
  simp only [compared, evaluate]
  exact evaluateComparison_of_some tested present _

theorem compared_of_numbers (tested : operator.requiresLiteral)
    (present : record.get? field = some value) (number : value.number? = some a)
    (read : Number.finite? literal = some b) :
    compared record field literal operator =
      .ok (.ofBool (operator.admits (Ord.compare (exactValue a) (exactValue b)))) := by
  rw [compared_of_some tested present, Comparison.test_of_numbers tested number read]
  rfl

theorem concord_incomparable (present : record.get? field = some value)
    (apart : value.number? = none ∨ Number.finite? literal = none) :
    Concord record field literal .incomparable := by
  have equal : compared record field literal .equal = .ok (.ofBool (value.agrees literal)) := by
    rw [compared_of_some rfl present, Comparison.test_of_unordered (by decide)]
    cases value.agrees literal <;> rfl
  have notEqual : compared record field literal .notEqual = .ok (.ofBool !value.agrees literal) := by
    rw [compared_of_some rfl present, Comparison.test_of_unordered (by decide)]
    cases value.agrees literal <;> rfl
  refine .incomparable present apart (fun operator ordering => ?_) equal notEqual
  have tested : operator.requiresLiteral := Comparison.requiresLiteral_of_ordering ordering
  rw [compared_of_some tested present, Comparison.test_of_ordering ordering apart]
  rfl

theorem concord_comparable (present : record.get? field = some value)
    (number : value.number? = some a) (read : Number.finite? literal = some b) :
    Concord record field literal .comparable := by
  have answers (operator : Comparison) (tested : operator.requiresLiteral) :=
    compared_of_numbers tested present number read
  refine .comparable present number read (answers .lessThan rfl) (answers .equal rfl)
    (answers .greaterThan rfl) ?_ ?_ ?_ ?_ ?_ ?_ ?_
  · simp [Comparison.admits, compare_lt_iff_lt]
  · simp [Comparison.admits]
  · simp [Comparison.admits, compare_gt_iff_gt]
  -- whichever order the two numbers are in, the other operators follow
  all_goals
    generalize Ord.compare (exactValue a) (exactValue b) = order at answers ⊢
  · cases order <;> rfl
  · rw [answers .lessOrEqual rfl]
    cases order <;> rfl
  · rw [answers .greaterOrEqual rfl]
    cases order <;> rfl
  · rw [answers .notEqual rfl]
    cases order <;> rfl

theorem concord_of (record : Record) (field literal : String) :
    Concord record field literal (.of record field literal) := by
  cases present : record.get? field with
  | none =>
    rw [Comparability.of_absent present]
    exact .missing present fun operator tested => compared_of_none tested present
  | some value =>
    by_cases apart : value.number? = none ∨ Number.finite? literal = none
    · rw [Comparability.of_apart present apart]
      exact concord_incomparable present apart
    · obtain ⟨some, some'⟩ := not_or.mp apart
      obtain ⟨a, number⟩ := Option.ne_none_iff_exists'.mp some
      obtain ⟨b, read⟩ := Option.ne_none_iff_exists'.mp some'
      rw [Comparability.of_numbers present number read]
      exact concord_comparable present number read

/-- No field and literal are in two situations. -/
theorem Concord.eq_of {situation : Comparability}
    (concord : Concord record field literal situation) : situation = .of record field literal := by
  cases concord with
  | missing absent => exact (Comparability.of_absent absent).symm
  | incomparable present apart => exact (Comparability.of_apart present apart).symm
  | comparable present number read => exact (Comparability.of_numbers present number read).symm

/-- An ordering test that holds has numbers on both sides. -/
theorem compared_eq_yes_iff (ordering : operator ∈ Comparison.orderings)
    (read : Number.finite? literal = some b) :
    compared record field literal operator = .ok .yes ↔
      ∃ value a, record.get? field = some value ∧ value.number? = some a ∧
        operator.admits (Ord.compare (exactValue a) (exactValue b)) = true := by
  have tested := Comparison.requiresLiteral_of_ordering ordering
  constructor
  · intro holds
    cases present : record.get? field with
    | none =>
      rw [compared_of_none tested present] at holds
      cases holds
    | some value =>
      cases number : value.number? with
      | none =>
        rw [compared_of_some tested present,
          Comparison.test_of_ordering ordering (.inl number)] at holds
        cases holds
      | some a =>
        rw [compared_of_numbers tested present number read] at holds
        refine ⟨value, a, rfl, number, ?_⟩
        revert holds
        cases operator.admits (Ord.compare (exactValue a) (exactValue b)) <;> decide
  · rintro ⟨value, a, present, number, admitted⟩
    rw [compared_of_numbers tested present number read, admitted]
    rfl

/-- A test that holds for one literal holds for every other that admits at least as much. -/
theorem compared_of_admits {other : String} (ordering : operator ∈ Comparison.orderings)
    (first : Number.finite? literal = some a) (second : Number.finite? other = some b)
    (admitted : ∀ x : ℚ, operator.admits (Ord.compare x (exactValue a)) = true →
      operator.admits (Ord.compare x (exactValue b)) = true)
    (holds : compared record field literal operator = .ok .yes) :
    compared record field other operator = .ok .yes := by
  obtain ⟨value, x, present, number, held⟩ := (compared_eq_yes_iff ordering first).mp holds
  exact (compared_eq_yes_iff ordering second).mpr ⟨value, x, present, number, admitted _ held⟩

/-- A field and a literal are in exactly one situation, and there the six comparisons agree. Tests
for less pass on to greater literals, and tests for greater to lesser ones. -/
theorem comparisons_concord (record : Record) (field literal : String) :
    (∃! situation, Concord record field literal situation) ∧
      ∀ low high a b, Number.finite? low = some a → Number.finite? high = some b → a ≤ b →
        (compared record field low .lessThan = .ok .yes →
          compared record field high .lessThan = .ok .yes) ∧
        (compared record field high .greaterThan = .ok .yes →
          compared record field low .greaterThan = .ok .yes) := by
  constructor
  · exact ⟨.of record field literal, concord_of record field literal, fun _ other => other.eq_of⟩
  · intro low high a b first second ascending
    rw [Number.le_iff_exactValue (Number.finite?_isFinite first) (Number.finite?_isFinite second)]
      at ascending
    constructor
    · refine compared_of_admits (by decide) first second fun x less => ?_
      simp only [Comparison.admits, Ordering.isLT_iff_eq_lt, compare_lt_iff_lt] at less ⊢
      exact less.trans_le ascending
    · refine compared_of_admits (by decide) second first fun x greater => ?_
      simp only [Comparison.admits, Ordering.isGT_iff_eq_gt, compare_gt_iff_gt] at greater ⊢
      exact ascending.trans_lt greater

def calm : Record :=
  Table.empty.insert "wind" (.text " 8.0 ")

theorem comparisons_concord_calm :
    (∃! situation, Concord calm "wind" "9" situation) ∧
      compared calm "wind" "9" .lessThan = .ok .yes ∧
      compared calm "wind" "1e1" .lessThan = .ok .yes := by
  have first : Number.finite? "9" = some 9 := by decide +kernel
  have second : Number.finite? "1e1" = some 10 := by decide +kernel
  have ascending : (9 : Float) ≤ 10 := by decide +kernel
  have less : compared calm "wind" "9" .lessThan = .ok .yes := by decide +kernel
  obtain ⟨one, ascends⟩ := comparisons_concord calm "wind" "9"
  exact ⟨one, less, (ascends "9" "1e1" 9 10 first second ascending).1 less⟩

end Predicate
end DecisionTree
