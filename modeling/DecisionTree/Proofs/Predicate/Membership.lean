import DecisionTree.Proofs.Predicate.Complement
import DecisionTree.Proofs.Predicate.Trichotomy

namespace DecisionTree

/-- The comparison with each literal that a membership test stands for. -/
def Membership.comparison : Membership → Comparison
  | .isIn => .equal
  | .isNotIn => .notEqual

def Membership.connective : Membership → Connective
  | .isIn => .or
  | .isNotIn => .and

namespace Predicate

/-- A membership test in full, with a comparison for each literal. -/
def memberInFull (field : String) (operator : Membership) (literals : List String) : Predicate :=
  .compound operator.connective
    (literals.map fun literal => .compare field operator.comparison (some literal))

variable {record : Record} {field : String} {value : Value} {operator : Membership}
  {literals others : List String}

theorem evaluate_member_of_none (absent : record.get? field = none) :
    (member field operator literals).evaluate record = .ok .unknown := by
  simp only [evaluate, evaluateMembership, absent]

theorem evaluate_member_of_some (present : record.get? field = some value) :
    (member field operator literals).evaluate record =
      .ok (.ofBool (literals.any value.agrees == (operator == .isIn))) := by
  simp only [evaluate, evaluateMembership, present]

theorem evaluate_isNotIn (literals : List String) :
    (member field .isNotIn literals).evaluate record =
      ((member field .isIn literals).evaluate record).map Truth.negate := by
  simp only [evaluate]
  exact congrArg Except.ok (evaluateMembership_complement field .isIn literals)

/-- Which literals there are is all that counts of them. -/
theorem evaluate_member_congr (same : ∀ literal, literal ∈ literals ↔ literal ∈ others) :
    (member field operator literals).evaluate record =
      (member field operator others).evaluate record := by
  cases found : record.get? field with
  | none => rw [evaluate_member_of_none found, evaluate_member_of_none found]
  | some value =>
    have alike : literals.any value.agrees = others.any value.agrees := by
      rw [Bool.eq_iff_iff, List.any_eq_true, List.any_eq_true]
      simp only [same]
    rw [evaluate_member_of_some found, evaluate_member_of_some found, alike]

private theorem complement_isIn_inFull (literals : List String) :
    (memberInFull field .isIn literals).complement = memberInFull field .isNotIn literals := by
  unfold memberInFull
  rw [complement, complementAll_eq_map, List.map_map]
  rfl

private theorem isComplementable_isIn_inFull (literals : List String) :
    ∀ part ∈ (memberInFull field .isIn literals).parts, part.isComplementable := by
  refine forall_parts_compound.mpr ⟨rfl, ?_⟩
  simp [parts, isComplementable]

theorem evaluate_isNotIn_inFull (literals : List String) :
    (memberInFull field .isNotIn literals).evaluate record =
      ((memberInFull field .isIn literals).evaluate record).map Truth.negate := by
  rw [← complement_isIn_inFull]
  exact evaluate_complement (isComplementable_isIn_inFull literals)

theorem evaluate_isIn_inFull {test : String → Truth}
    (each : ∀ literal, compared record field literal .equal = .ok (test literal)) :
    (memberInFull field .isIn literals).evaluate record = .ok (Truth.any (literals.map test)) := by
  have outcomes : (literals.map fun literal => compare field .equal (some literal)).mapM
      (evaluate record) = .ok (literals.map test) := by
    rw [Sequence.mapM_eq_ok_iff, List.map_map, List.map_map]
    exact List.map_congr_left fun literal _ => each literal
  unfold memberInFull
  rw [evaluate_compound (by decide)]
  exact congrArg (Except.map Truth.any) outcomes

theorem evaluate_isIn_inFull_of_none (absent : record.get? field = none) :
    (memberInFull field .isIn literals).evaluate record =
      .ok (if literals = [] then .no else .unknown) := by
  rw [evaluate_isIn_inFull fun literal => compared_of_none rfl absent]
  cases literals <;> simp [Truth.any]

theorem evaluate_isIn_inFull_of_some (present : record.get? field = some value) :
    (memberInFull field .isIn literals).evaluate record =
      .ok (.ofBool (literals.any value.agrees)) := by
  rw [← Truth.any_map_ofBool]
  refine evaluate_isIn_inFull fun literal => ?_
  rw [compared_of_some rfl present, Comparison.test_of_unordered (by decide)]
  cases value.agrees literal <;> rfl

theorem isIn_eq_inFull_iff :
    (member field .isIn literals).evaluate record =
        (memberInFull field .isIn literals).evaluate record ↔
      literals ≠ [] ∨ record.contains field = true := by
  cases found : record.get? field with
  | none =>
    rw [evaluate_member_of_none found, evaluate_isIn_inFull_of_none found]
    by_cases empty : literals = [] <;> simp [empty, Table.contains, found]
  | some value =>
    rw [evaluate_member_of_some found, evaluate_isIn_inFull_of_some found]
    simp [Table.contains, found]

theorem member_eq_inFull_iff (operator : Membership) :
    (member field operator literals).evaluate record =
        (memberInFull field operator literals).evaluate record ↔
      literals ≠ [] ∨ record.contains field = true := by
  cases operator with
  | isIn => exact isIn_eq_inFull_iff
  | isNotIn =>
    rw [evaluate_isNotIn, evaluate_isNotIn_inFull, Sequence.map_inj Truth.negate_injective,
      isIn_eq_inFull_iff]

private theorem evaluate_member_isOk (operator : Membership) (literals : List String) :
    ∃ truth, (member field operator literals).evaluate record = .ok truth := by
  simp only [evaluate]
  exact ⟨_, rfl⟩

/-- Equality and inequality never fail, so neither do their combinations. -/
theorem evaluate_memberInFull_isOk (operator : Membership) (literals : List String) :
    ∃ truth, (memberInFull field operator literals).evaluate record = .ok truth := by
  have isIn : ∃ truth, (memberInFull field .isIn literals).evaluate record = .ok truth := by
    cases found : record.get? field with
    | none => exact ⟨_, evaluate_isIn_inFull_of_none found⟩
    | some value => exact ⟨_, evaluate_isIn_inFull_of_some found⟩
  cases operator with
  | isIn => exact isIn
  | isNotIn =>
    obtain ⟨truth, success⟩ := isIn
    rw [evaluate_isNotIn_inFull, success]
    exact ⟨truth.negate, rfl⟩

theorem evaluate_member_eq_unknown_iff :
    (member field operator literals).evaluate record = .ok .unknown ↔
      record.contains field = false := by
  unfold Table.contains
  cases found : record.get? field with
  | none => simp [evaluate_member_of_none found]
  | some value => simp [evaluate_member_of_some found, Truth.ofBool_ne_unknown]

/-- A membership test comes to what its comparisons come to, without an error, unless there is
neither a value nor a literal to compare. Neither the order of the literals nor repetitions count,
one operator is the negation of the other, and both are unknown exactly if the field is missing,
whatever the literals. -/
theorem member_abbreviates (field : String) (literals : List String) (record : Record) :
    (∀ operator, (member field operator literals).evaluate record =
        (memberInFull field operator literals).evaluate record ↔
      literals ≠ [] ∨ record.contains field = true) ∧
    (∀ operator, (∃ truth, (member field operator literals).evaluate record = .ok truth) ∧
      ∃ truth, (memberInFull field operator literals).evaluate record = .ok truth) ∧
    (∀ operator others, (∀ literal, literal ∈ literals ↔ literal ∈ others) →
      (member field operator literals).evaluate record =
        (member field operator others).evaluate record) ∧
    (member field .isNotIn literals).evaluate record =
      ((member field .isIn literals).evaluate record).map Truth.negate ∧
    ∀ operator, (member field operator literals).evaluate record = .ok .unknown ↔
      record.contains field = false := by
  refine ⟨member_eq_inFull_iff, fun operator => ⟨?_, ?_⟩, ?_, ?_, ?_⟩
  · exact evaluate_member_isOk operator literals
  · exact evaluate_memberInFull_isOk operator literals
  · exact fun operator others same => evaluate_member_congr same
  · exact evaluate_isNotIn literals
  · exact fun operator => evaluate_member_eq_unknown_iff

/-- A wind of 8 is in a set that has it in another spelling, and in no order of the set out of it. -/
theorem member_abbreviates_calm :
    (memberInFull "wind" .isIn ["strong", "8"]).evaluate calm = .ok .yes ∧
      (member "wind" .isNotIn ["8", "strong", "8"]).evaluate calm = .ok .no := by
  obtain ⟨full, -, congruent, negated, -⟩ := member_abbreviates "wind" ["strong", "8"] calm
  have isIn : (member "wind" .isIn ["strong", "8"]).evaluate calm = .ok .yes := by decide +kernel
  constructor
  · rw [← (full .isIn).mpr (.inl (by decide)), isIn]
  · rw [← congruent .isNotIn ["8", "strong", "8"] (by simp [or_comm]), negated, isIn]
    rfl

/-- Without a value and without literals the two are apart. -/
example : (member "sky" .isIn []).evaluate calm = .ok .unknown ∧
    (memberInFull "sky" .isIn []).evaluate calm = .ok .no ∧
    (memberInFull "sky" .isNotIn []).evaluate calm = .ok .yes := by
  decide

end Predicate
end DecisionTree
