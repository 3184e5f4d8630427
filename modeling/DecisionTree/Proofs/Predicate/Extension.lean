import DecisionTree.Proofs.Predicate.Evaluation
import DecisionTree.Proofs.Predicate.Parts
import DecisionTree.Proofs.Truth

/-!
More fields never change a decided outcome, as long as no part of the predicate asks whether a
field is there or takes another test in its place. Presence tests turn around when a field comes,
and a surrogate goes back to a test in front of the one that decided.
-/

namespace DecisionTree

/-- Every field of one record has the same value in the other, which may have more fields. -/
def Record.Extends (large small : Record) : Prop :=
  ∀ field value, small.get? field = some value → large.get? field = some value

theorem Record.extends_insert {record : Record} {field : String} (absent : record.get? field = none)
    (value : Value) : Record.Extends (record.insert field value) record := by
  intro other kept present
  have differs : other ≠ field := by
    rintro rfl
    rw [absent] at present
    cases present
  rw [Table.get?_insert, if_neg differs, present]

namespace Predicate

/-- Whether more fields can only decide the predicate if they do so for its operands. -/
def isSteady : Predicate → Bool
  | .compare _ operator _ => operator.requiresLiteral
  | .compound .surrogate _ => false
  | _ => true

variable {small large : Record} {outcome other : Truth}

theorem evaluateComparison_refines (more : large.Extends small) {field : String}
    {operator : Comparison} {literal : Option String}
    (tested : operator.requiresLiteral)
    (before : evaluateComparison field operator literal small = .ok outcome)
    (after : evaluateComparison field operator literal large = .ok other) :
    outcome.Refines other := by
  cases found : small.get? field with
  | none =>
    rw [evaluateComparison_of_none tested found] at before
    exact .inl (Except.ok.inj before).symm
  | some value =>
    rw [evaluateComparison_of_some tested found] at before
    rw [evaluateComparison_of_some tested (more field value found), before] at after
    exact .inr (Except.ok.inj after)

theorem evaluateMembership_refines (more : large.Extends small) (field : String)
    (operator : Membership) (literals : List String) :
    (evaluateMembership field operator literals small).Refines
      (evaluateMembership field operator literals large) := by
  cases found : small.get? field with
  | none => exact .inl (by simp only [evaluateMembership, found])
  | some value => exact .inr (by simp only [evaluateMembership, found, more field value found])

theorem combine_refines {operator : Connective} (gathers : operator ≠ .surrogate)
    {vague exact : List Truth} (refined : List.Forall₂ Truth.Refines vague exact) :
    (operator.combine vague).Refines (operator.combine exact) := by
  cases operator with
  | and => exact Truth.all_refines refined
  | or => exact Truth.any_refines refined
  | xor => exact Truth.exactlyOne_refines refined
  | surrogate => exact absurd rfl gathers

/-- If a predicate evaluates both on a record and on one with more fields, the second outcome is
the first one unless that was unknown. -/
theorem evaluate_refines (more : large.Extends small) {predicate : Predicate}
    (steady : ∀ part ∈ predicate.parts, part.isSteady)
    (before : predicate.evaluate small = .ok outcome)
    (after : predicate.evaluate large = .ok other) : outcome.Refines other := by
  induction predicate using Predicate.induction generalizing outcome other with
  | always | never => exact .inr (Except.ok.inj (before.symm.trans after))
  | compare field operator literal =>
    simp only [evaluate] at before after
    exact evaluateComparison_refines more (steady _ (self_mem_parts _)) before after
  | member field operator literals =>
    simp only [evaluate, Except.ok.injEq] at before after
    exact before ▸ after ▸ evaluateMembership_refines more field operator literals
  | compound operator operands ih =>
    obtain ⟨whole, inner⟩ := forall_parts_compound.mp steady
    have gathers : operator ≠ .surrogate := fun same => by
      subst same
      cases whole
    rw [evaluate_compound gathers] at before after
    obtain ⟨vague, first, rfl⟩ := Sequence.map_eq_ok_iff.mp before
    obtain ⟨exact, second, rfl⟩ := Sequence.map_eq_ok_iff.mp after
    apply combine_refines gathers
    refine Sequence.mapM_related (fun operand member truth sharper early late => ?_) first second
    exact ih operand member (inner operand member) early late

end Predicate
end DecisionTree
