import DecisionTree.Pmml.Predicate
import DecisionTree.Proofs.Predicate.Parts
import DecisionTree.Proofs.Sequence

namespace DecisionTree

/-- What holds of an item whenever it does of all items in it holds of every item. -/
@[elab_as_elim]
theorem Xml.Content.induction {motive : Xml.Content → Prop}
    (element : ∀ name attributes content, (∀ item ∈ content, motive item) →
      motive (.element name attributes content))
    (text : ∀ content, motive (.text content)) (comment : motive .comment)
    (instruction : motive .instruction) (item : Xml.Content) : motive item :=
  @Xml.Content.rec motive (fun content => ∀ item ∈ content, motive item)
    element text comment instruction (fun _ absent => nomatch absent)
    (fun _ _ head tail => List.forall_mem_cons.mpr ⟨head, tail⟩) item

namespace Predicate

/-- A comparison with a literal exactly if it requires one, or a compound with operands; constants
and membership tests always are proper. -/
def isProper : Predicate → Bool
  | .compare _ operator literal => operator.requiresLiteral == literal.isSome
  | .compound _ operands => !operands.isEmpty
  | _ => true

def WellFormed (predicate : Predicate) : Prop :=
  ∀ part ∈ predicate.parts, part.isProper

instance (predicate : Predicate) : Decidable predicate.WellFormed :=
  inferInstanceAs (Decidable (∀ part ∈ predicate.parts, part.isProper = true))

theorem wellFormed_compound {operator : Connective} {operands : List Predicate} :
    (compound operator operands).WellFormed ↔
      operands ≠ [] ∧ ∀ operand ∈ operands, operand.WellFormed := by
  unfold WellFormed
  rw [forall_parts_compound]
  simp [isProper]

end Predicate

namespace Pmml

open Xml (Content Attribute)
open Sequence (bind_eq_ok_iff)

variable {attributes : List Attribute} {content : List Content} {item : Content}
  {predicate : Predicate} {operands : List Predicate}

theorem readComparison_wellFormed (read : readComparison attributes = .ok predicate) :
    predicate.WellFormed := by
  unfold readComparison at read
  obtain ⟨field, _, read⟩ := bind_eq_ok_iff.mp read
  obtain ⟨keyword, _, read⟩ := bind_eq_ok_iff.mp read
  obtain ⟨operator, _, read⟩ := bind_eq_ok_iff.mp read
  split at read
  next needed =>
    obtain ⟨literal, _, read⟩ := bind_eq_ok_iff.mp read
    cases read
    simp [Predicate.WellFormed, Predicate.parts, Predicate.isProper, needed]
  next free =>
    cases read
    simp [Predicate.WellFormed, Predicate.parts, Predicate.isProper, free]

theorem readMembership_wellFormed (read : readMembership attributes content = .ok predicate) :
    predicate.WellFormed := by
  unfold readMembership at read
  obtain ⟨field, _, read⟩ := bind_eq_ok_iff.mp read
  obtain ⟨keyword, _, read⟩ := bind_eq_ok_iff.mp read
  obtain ⟨operator, _, read⟩ := bind_eq_ok_iff.mp read
  split at read
  next => cases read
  next =>
    cases read
    simp [Predicate.WellFormed, Predicate.parts, Predicate.isProper]

theorem compoundOf_wellFormed {operator : Connective}
    (each : ∀ operand ∈ operands, operand.WellFormed)
    (built : compoundOf operator operands = .ok predicate) : predicate.WellFormed := by
  unfold compoundOf at built
  split at built
  next => cases built
  next inhabited =>
    cases built
    refine Predicate.wellFormed_compound.mpr ⟨fun empty => ?_, each⟩
    simp [empty] at inhabited

theorem readOperands_wellFormed
    (each : ∀ item ∈ content, ∀ predicate, readPredicate item = .ok predicate →
      predicate.WellFormed)
    (read : readOperands content = .ok operands) : ∀ operand ∈ operands, operand.WellFormed := by
  induction content generalizing operands with
  | nil =>
    cases read
    simp
  | cons item rest ih =>
    obtain ⟨first, later⟩ := List.forall_mem_cons.mp each
    rw [readOperands] at read
    split at read
    next => exact ih later read
    next => exact ih later read
    next =>
      obtain ⟨operand, head, read⟩ := bind_eq_ok_iff.mp read
      obtain ⟨others, tail, read⟩ := bind_eq_ok_iff.mp read
      cases read
      exact List.forall_mem_cons.mpr ⟨first operand head, ih later tail⟩

/-- The reader builds well-formed predicates only. -/
theorem readPredicate_wellFormed (read : readPredicate item = .ok predicate) :
    predicate.WellFormed := by
  induction item using Content.induction generalizing predicate with
  | text | comment | instruction => cases read
  | element name attributes content ih =>
    rw [readPredicate] at read
    split at read
    next =>
      cases read
      simp [Predicate.WellFormed, Predicate.parts, Predicate.isProper]
    next =>
      cases read
      simp [Predicate.WellFormed, Predicate.parts, Predicate.isProper]
    next => exact readComparison_wellFormed read
    next => exact readMembership_wellFormed read
    next =>
      obtain ⟨operator, _, read⟩ := bind_eq_ok_iff.mp read
      obtain ⟨operands, inner, read⟩ := bind_eq_ok_iff.mp read
      have formed := readOperands_wellFormed (fun item member _ => ih item member) inner
      exact compoundOf_wellFormed formed read
    next => cases read

end Pmml
end DecisionTree
