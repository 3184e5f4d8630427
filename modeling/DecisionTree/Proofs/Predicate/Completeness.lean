import DecisionTree.Proofs.Predicate.Evaluation
import DecisionTree.Proofs.Predicate.Fields
import DecisionTree.Proofs.Truth

namespace DecisionTree

/-- Every one of these fields has a value. -/
def Record.Covers (record : Record) (fields : List String) : Prop :=
  ∀ field ∈ fields, record.contains field = true

instance (record : Record) (fields : List String) : Decidable (record.Covers fields) :=
  inferInstanceAs (Decidable (∀ field ∈ fields, record.contains field = true))

namespace Predicate

/-- Whether the predicate is anything but a surrogate without operands. -/
def isResolvable : Predicate → Bool
  | .compound .surrogate [] => false
  | _ => true

variable {record : Record}

private theorem evaluateComparison_ne_unknown {field : String}
    (present : record.contains field = true)
    (operator : Comparison) (literal : Option String) :
    evaluateComparison field operator literal record ≠ .ok .unknown := by
  obtain ⟨value, found⟩ := Option.isSome_iff_exists.mp present
  by_cases tested : operator.requiresLiteral
  · rw [evaluateComparison_of_some tested found]
    intro same
    obtain ⟨holds, _, decided⟩ := Sequence.map_eq_ok_iff.mp same
    exact Truth.ofBool_ne_unknown holds decided
  · cases operator with
    | isMissing | isNotMissing =>
      intro same
      exact Truth.ofBool_ne_unknown _ (Except.ok.inj same)
    | _ => exact absurd rfl tested

private theorem evaluateMembership_ne_unknown {field : String}
    (present : record.contains field = true)
    (operator : Membership) (literals : List String) :
    evaluateMembership field operator literals record ≠ .unknown := by
  obtain ⟨value, found⟩ := Option.isSome_iff_exists.mp present
  simp only [evaluateMembership, found]
  exact Truth.ofBool_ne_unknown _

theorem combine_ne_unknown {operator : Connective} (gathers : operator ≠ .surrogate)
    {outcomes : List Truth} (decided : .unknown ∉ outcomes) :
    operator.combine outcomes ≠ .unknown := by
  cases operator with
  | and => exact Truth.all_ne_unknown decided
  | or => exact Truth.any_ne_unknown decided
  | xor => exact Truth.exactlyOne_ne_unknown decided
  | surrogate => exact absurd rfl gathers

/-- A predicate is decided by a record that has the field of every test in it. -/
theorem evaluate_ne_unknown_of_tests {predicate : Predicate}
    (resolvable : ∀ part ∈ predicate.parts, part.isResolvable)
    (present : ∀ part ∈ predicate.parts, ∀ field, part.testedField? = some field →
      record.contains field = true) :
    predicate.evaluate record ≠ .ok .unknown := by
  induction predicate using Predicate.induction with
  | always | never => exact fun same => nomatch Except.ok.inj same
  | compare field operator literal =>
    simp only [evaluate]
    exact evaluateComparison_ne_unknown (present _ (self_mem_parts _) field rfl) operator literal
  | member field operator literals =>
    simp only [evaluate, ne_eq, Except.ok.injEq]
    exact evaluateMembership_ne_unknown (present _ (self_mem_parts _) field rfl) operator literals
  | compound operator operands ih =>
    obtain ⟨whole, inner⟩ := forall_parts_compound.mp resolvable
    have fields := (forall_parts_compound.mp present).2
    have each := fun operand member =>
      ih operand member (inner operand member) (fields operand member)
    by_cases gathers : operator = .surrogate
    · subst gathers
      cases operands with
      | nil => cases whole
      | cons operand rest =>
        have decided := each operand (by simp)
        rw [evaluate_surrogate, evaluateFirst_of_decided decided]
        exact decided
    · rw [evaluate_compound gathers]
      intro same
      obtain ⟨outcomes, success, combined⟩ := Sequence.map_eq_ok_iff.mp same
      refine combine_ne_unknown gathers (fun vacant => ?_) combined
      have image : Except.ok .unknown ∈ operands.map (evaluate record) :=
        Sequence.mapM_eq_ok_iff.mp success ▸ List.mem_map_of_mem vacant
      obtain ⟨operand, member, unknown⟩ := List.mem_map.mp image
      exact each operand member unknown

/-- A predicate is decided by a record that has all its fields. -/
theorem evaluate_ne_unknown {predicate : Predicate}
    (resolvable : ∀ part ∈ predicate.parts, part.isResolvable)
    (covered : record.Covers predicate.fields) : predicate.evaluate record ≠ .ok .unknown :=
  evaluate_ne_unknown_of_tests resolvable fun part member field named =>
    covered field (mem_fields_iff.mpr ⟨part, member, named⟩)

end Predicate
end DecisionTree
