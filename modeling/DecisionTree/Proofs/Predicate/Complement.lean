import DecisionTree.Proofs.Number.Finite
import DecisionTree.Proofs.Predicate.Evaluation
import DecisionTree.Proofs.Predicate.Parts
import DecisionTree.Proofs.Truth

namespace DecisionTree

def Comparison.complement : Comparison → Comparison
  | .equal => .notEqual
  | .notEqual => .equal
  | .lessThan => .greaterOrEqual
  | .lessOrEqual => .greaterThan
  | .greaterThan => .lessOrEqual
  | .greaterOrEqual => .lessThan
  | .isMissing => .isNotMissing
  | .isNotMissing => .isMissing

def Membership.complement : Membership → Membership
  | .isIn => .isNotIn
  | .isNotIn => .isIn

/-- The connective for the complements of operands. Exclusive disjunction has no counterpart. -/
def Connective.complement : Connective → Connective
  | .and => .or
  | .or => .and
  | .xor => .xor
  | .surrogate => .surrogate

namespace Predicate

mutual

/-- The predicate with every test and every connective in it turned into its opposite. -/
def complement : Predicate → Predicate
  | .always => .never
  | .never => .always
  | .compare field operator literal => .compare field operator.complement literal
  | .member field operator literals => .member field operator.complement literals
  | .compound operator operands => .compound operator.complement (complementAll operands)

def complementAll : List Predicate → List Predicate
  | [] => []
  | operand :: rest => complement operand :: complementAll rest

end

theorem complementAll_eq_map (operands : List Predicate) :
    complementAll operands = operands.map complement := by
  induction operands with
  | nil => rfl
  | cons operand rest ih => rw [complementAll, ih, List.map_cons]

/-- Whether the predicate has a complement if its operands do. -/
def isComplementable : Predicate → Bool
  | .compare _ operator literal => !operator.requiresLiteral || literal.isSome
  | .compound .xor _ => false
  | _ => true

end Predicate

private theorem numericOperands_finite {field literal : String} {value : Value} {a b : Float}
    (numbers : numericOperands field value literal = .ok (a, b)) :
    a.isFinite = true ∧ b.isFinite = true := by
  unfold numericOperands at numbers
  split at numbers
  next first second =>
    cases numbers
    exact ⟨Value.number?_isFinite first, Number.finite?_isFinite second⟩
  next => cases numbers

/-- An ordering test and its opposite disagree on finite numbers. -/
theorem Comparison.order?_complement {operator : Comparison} {order : Float → Float → Bool}
    (ordering : operator.order? = some order) :
    ∃ opposite, operator.complement.order? = some opposite ∧
      ∀ a b : Float, a.isFinite = true → b.isFinite = true → opposite a b = !order a b := by
  cases operator with
  | equal | notEqual | isMissing | isNotMissing => cases ordering
  | lessThan =>
    cases ordering
    refine ⟨_, rfl, fun a b first second => ?_⟩
    simp [Number.lt_iff_not_le first second]
  | lessOrEqual =>
    cases ordering
    refine ⟨_, rfl, fun a b first second => ?_⟩
    simp [Number.lt_iff_not_le second first]
  | greaterThan =>
    cases ordering
    refine ⟨_, rfl, fun a b first second => ?_⟩
    simp [Number.lt_iff_not_le second first]
  | greaterOrEqual =>
    cases ordering
    refine ⟨_, rfl, fun a b first second => ?_⟩
    simp [Number.lt_iff_not_le first second]

private theorem Comparison.order?_complement_none {operator : Comparison}
    (unordered : operator.order? = none) : operator.complement.order? = none := by
  cases operator <;> first | rfl | cases unordered

theorem Comparison.test_complement {operator : Comparison} (field : String) (value : Value)
    (literal : String) (tested : operator.requiresLiteral) :
    operator.complement.test field value (some literal) =
      (operator.test field value (some literal)).map (!·) := by
  unfold Comparison.test
  cases ordering : operator.order? with
  | some order =>
    obtain ⟨opposite, found, disagree⟩ := Comparison.order?_complement ordering
    simp only [found]
    cases numbers : numericOperands field value literal with
    | error error => rfl
    | ok pair =>
      obtain ⟨a, b⟩ := pair
      obtain ⟨first, second⟩ := numericOperands_finite numbers
      exact congrArg Except.ok (disagree a b first second)
  | none =>
    simp only [Comparison.order?_complement_none ordering]
    cases operator with
    | equal | notEqual => cases agreed : value.agrees literal <;> rfl
    | isMissing | isNotMissing => cases tested
    | lessThan | lessOrEqual | greaterThan | greaterOrEqual => cases ordering

namespace Predicate

variable {record : Record}

theorem evaluateComparison_complement {field : String} {operator : Comparison}
    {literal : Option String} (able : (compare field operator literal).isComplementable) :
    evaluateComparison field operator.complement literal record =
      (evaluateComparison field operator literal record).map Truth.negate := by
  by_cases tested : operator.requiresLiteral
  · have opposite : operator.complement.requiresLiteral := by
      cases operator <;> first | rfl | cases tested
    cases found : record.get? field with
    | none =>
      rw [evaluateComparison_of_none opposite found, evaluateComparison_of_none tested found]
      rfl
    | some value =>
      cases literal with
      | none => simp [isComplementable, tested] at able
      | some literal =>
        rw [evaluateComparison_of_some opposite found, evaluateComparison_of_some tested found,
          Comparison.test_complement field value literal tested]
        cases operator.test field value (some literal) with
        | error error => rfl
        | ok holds => exact congrArg Except.ok (Truth.negate_ofBool holds).symm
  · cases operator with
    | isMissing | isNotMissing =>
      simp only [evaluateComparison, Comparison.complement]
      cases record.get? field <;> rfl
    | _ => exact absurd rfl tested

theorem evaluateMembership_complement (field : String) (operator : Membership)
    (literals : List String) :
    evaluateMembership field operator.complement literals record =
      (evaluateMembership field operator literals record).negate := by
  unfold evaluateMembership
  cases record.get? field with
  | none => rfl
  | some value =>
    simp only [Truth.negate_ofBool]
    cases operator <;> cases literals.any value.agrees <;> rfl

theorem combine_complement {operator : Connective} (gathers : operator ≠ .surrogate)
    (paired : operator ≠ .xor) (outcomes : List Truth) :
    operator.complement.combine (outcomes.map Truth.negate) =
      (operator.combine outcomes).negate := by
  cases operator with
  | and => exact Truth.any_map_negate outcomes
  | or => exact Truth.all_map_negate outcomes
  | xor => exact absurd rfl paired
  | surrogate => exact absurd rfl gathers

theorem evaluateFirst_complement {operands : List Predicate}
    (each : ∀ operand ∈ operands,
      operand.complement.evaluate record = (operand.evaluate record).map Truth.negate) :
    evaluateFirst record (operands.map complement) =
      (evaluateFirst record operands).map Truth.negate := by
  induction operands with
  | nil => rfl
  | cons operand rest ih =>
    have head := each operand (by simp)
    have tail := ih fun later member => each later (by simp [member])
    by_cases undecided : operand.evaluate record = .ok .unknown
    · rw [undecided] at head
      rw [List.map_cons, evaluateFirst_of_unknown undecided, ← tail]
      exact evaluateFirst_of_unknown head
    · have opposite : operand.complement.evaluate record ≠ .ok .unknown := by
        rw [head]
        intro same
        obtain ⟨truth, found, negated⟩ := Sequence.map_eq_ok_iff.mp same
        cases truth with
        | yes | no => cases negated
        | unknown => exact undecided found
      rw [List.map_cons, evaluateFirst_of_decided undecided, evaluateFirst_of_decided opposite,
        head]

/-- The complement evaluates to the negation, and to the same error. -/
theorem evaluate_complement {predicate : Predicate}
    (able : ∀ part ∈ predicate.parts, part.isComplementable) :
    predicate.complement.evaluate record = (predicate.evaluate record).map Truth.negate := by
  induction predicate using Predicate.induction with
  | always | never => rfl
  | compare field operator literal =>
    simp only [complement, evaluate]
    exact evaluateComparison_complement (able _ (self_mem_parts _))
  | member field operator literals =>
    simp only [complement, evaluate]
    exact congrArg Except.ok (evaluateMembership_complement field operator literals)
  | compound operator operands ih =>
    obtain ⟨whole, inner⟩ := forall_parts_compound.mp able
    have each := fun operand member => ih operand member (inner operand member)
    rw [complement, complementAll_eq_map]
    by_cases gathers : operator = .surrogate
    · subst gathers
      exact evaluateFirst_complement each
    · have paired : operator ≠ .xor := fun same => by
        subst same
        cases whole
      have opposite : operator.complement ≠ .surrogate := by
        cases operator <;> first | decide | exact absurd rfl gathers
      -- operand by operand, so that the first error is the same one
      have negated : (operands.map complement).mapM (evaluate record) =
          (operands.mapM (evaluate record)).map (List.map Truth.negate) :=
        List.mapM_map.trans (Sequence.mapM_of_map each)
      rw [evaluate_compound gathers, evaluate_compound opposite, negated]
      cases operands.mapM (evaluate record) with
      | error error => rfl
      | ok outcomes => exact congrArg Except.ok (combine_complement gathers paired outcomes)

theorem complement_complement (predicate : Predicate) :
    predicate.complement.complement = predicate := by
  induction predicate using Predicate.induction with
  | always | never => rfl
  | compare field operator literal => cases operator <;> rfl
  | member field operator literals => cases operator <;> rfl
  | compound operator operands ih =>
    have twice : operator.complement.complement = operator := by cases operator <;> rfl
    have inner : (operands.map complement).map complement = operands := by
      rw [List.map_map]
      exact (List.map_congr_left ih).trans (List.map_id operands)
    rw [complement, complementAll_eq_map, complement, complementAll_eq_map, twice, inner]

private theorem isComplementable_complement (predicate : Predicate) :
    predicate.complement.isComplementable = predicate.isComplementable := by
  cases predicate with
  | always | never | member => rfl
  | compare field operator literal => cases operator <;> rfl
  | compound operator operands => cases operator <;> rfl

/-- What has a complement is one itself. -/
theorem isComplementable_parts_complement {predicate : Predicate}
    (able : ∀ part ∈ predicate.parts, part.isComplementable) :
    ∀ part ∈ predicate.complement.parts, part.isComplementable := by
  induction predicate using Predicate.induction with
  | always | never | compare | member =>
    have whole := able _ (self_mem_parts _)
    rw [← isComplementable_complement] at whole
    simpa [complement, parts] using whole
  | compound operator operands ih =>
    obtain ⟨whole, inner⟩ := forall_parts_compound.mp able
    rw [← isComplementable_complement] at whole
    rw [complement, complementAll_eq_map] at whole ⊢
    refine forall_parts_compound.mpr ⟨whole, fun opposite member => ?_⟩
    obtain ⟨operand, below, rfl⟩ := List.mem_map.mp member
    exact ih operand below (inner operand below)

/-- The complement holds where the predicate fails and fails where it holds; what is unknown stays
so, and an error stays the same. Its own complement is the predicate again. -/
theorem complement_negates {predicate : Predicate}
    (able : ∀ part ∈ predicate.parts, part.isComplementable) (record : Record) :
    (∀ truth, predicate.evaluate record = .ok truth ↔
        predicate.complement.evaluate record = .ok truth.negate) ∧
      (∀ error, predicate.evaluate record = .error error ↔
        predicate.complement.evaluate record = .error error) ∧
      predicate.complement.complement = predicate ∧
      ∀ part ∈ predicate.complement.parts, part.isComplementable := by
  have negated : predicate.complement.evaluate record =
      (predicate.evaluate record).map Truth.negate := evaluate_complement able
  refine ⟨fun truth => ?_, fun error => ?_, complement_complement predicate,
    isComplementable_parts_complement able⟩
  · rw [negated, Sequence.map_eq_ok_iff]
    constructor
    · exact fun evaluated => ⟨truth, evaluated, rfl⟩
    · rintro ⟨other, evaluated, same⟩
      rw [evaluated, ← Truth.negate_negate other, same, Truth.negate_negate]
  · rw [negated, Sequence.map_eq_error_iff]

/-- A clear sky with little or unknown wind, not on a working day. -/
def leisurely : Predicate :=
  .compound .and [.compare "sky" .equal (some "clear"),
    .compound .surrogate [.compare "wind" .lessOrEqual (some "8"), .compare "wind" .isMissing none],
    .member "day" .isNotIn ["Monday", "Friday"]]

/-- The complement asks for a sky that is not clear, for more wind or for a working day. The error
of a wind that is no number is the same for both. -/
theorem complement_negates_leisurely :
    leisurely.complement = .compound .or [.compare "sky" .notEqual (some "clear"),
        .compound .surrogate [.compare "wind" .greaterThan (some "8"),
          .compare "wind" .isNotMissing none],
        .member "day" .isIn ["Monday", "Friday"]] ∧
      leisurely.complement.evaluate
        ((Table.empty.insert "sky" (.text "clear")).insert "day" (.text "Sunday")) = .ok .no ∧
      leisurely.complement.evaluate (Table.empty.insert "wind" (.text "strong")) =
        .error (.notNumeric "wind" "strong" "8") := by
  have able : ∀ part ∈ leisurely.parts, part.isComplementable := by decide
  have holds : leisurely.evaluate
      ((Table.empty.insert "sky" (.text "clear")).insert "day" (.text "Sunday")) = .ok .yes := by
    decide +kernel
  have fails : leisurely.evaluate (Table.empty.insert "wind" (.text "strong")) =
      .error (.notNumeric "wind" "strong" "8") := by decide +kernel
  exact ⟨rfl, ((complement_negates able _).1 .yes).mp holds,
    ((complement_negates able _).2.1 _).mp fails⟩

end Predicate
end DecisionTree
