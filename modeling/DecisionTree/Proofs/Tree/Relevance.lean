import DecisionTree.Proofs.Predicate.Compound
import DecisionTree.Proofs.Predicate.Fields
import DecisionTree.Proofs.Tree.Appearance

namespace DecisionTree

/-- Each of these fields has the same value in both records or is missing from both. -/
def Record.AgreesOn (first second : Record) (fields : List String) : Prop :=
  ∀ field ∈ fields, first.get? field = second.get? field

instance (first second : Record) (fields : List String) :
    Decidable (first.AgreesOn second fields) :=
  inferInstanceAs (Decidable (∀ field ∈ fields, first.get? field = second.get? field))

variable {first second record : Record} {split : Split}

namespace Predicate

variable {predicate : Predicate}

/-- A predicate reads a record through its tests only. -/
theorem evaluate_eq_of_tests
    (same : ∀ part ∈ predicate.parts, ∀ field, part.testedField? = some field →
      first.get? field = second.get? field) :
    predicate.evaluate first = predicate.evaluate second := by
  induction predicate using Predicate.induction with
  | always | never => rfl
  | compare field operator literal =>
    simp only [evaluate, evaluateComparison, same _ (self_mem_parts _) field rfl]
  | member field operator literals =>
    simp only [evaluate, evaluateMembership, same _ (self_mem_parts _) field rfl]
  | compound operator operands ih =>
    have inner := (forall_parts_compound.mp same).2
    have outcomes : operands.map (evaluate first) = operands.map (evaluate second) :=
      List.map_congr_left fun operand member => ih operand member (inner operand member)
    rw [evaluate_compound_eq_resolve, evaluate_compound_eq_resolve, outcomes]

private theorem evaluate_eq_of_agreesOn (agree : first.AgreesOn second predicate.fields) :
    predicate.evaluate first = predicate.evaluate second :=
  evaluate_eq_of_tests fun part inside field named =>
    agree field (mem_fields_iff.mpr ⟨part, inside, named⟩)

end Predicate

namespace Node

variable {root node : Node}

private theorem walk_eq_of_evaluate_eq
    (same : ∀ node ∈ root.descendants,
      node.predicate.evaluate first = node.predicate.evaluate second) :
    root.walk split first = root.walk split second := by
  induction root using Node.induction with
  | parent root ih =>
    have tests : root.children.map (·.predicate.evaluate second) =
        root.children.map (·.predicate.evaluate first) :=
      List.map_congr_left fun child below => (same child (child_mem_descendants below)).symm
    have steps : root.step split first = root.step split second := (sameStep_of_tests rfl tests).eq
    rw [walk_eq_step, walk_eq_step, steps]
    cases outcome : root.step split second with
    | error error => rfl
    | ok taken =>
      cases taken with
      | stop stop => rfl
      | enter child =>
        have below := (step_eq_iff.mp outcome).child_mem
        have later := ih child below fun node inside =>
          same node (descendants_subset_descendants below inside)
        simp only [later]

/-- The walk never asks the predicate of the node it starts from. -/
theorem walk_with_predicate (root : Node) (predicate : Predicate) :
    SameWalk (root.walk split record) (walk split record { root with predicate }) := by
  have step : step split record { root with predicate } = root.step split record := rfl
  have resembles : root.Resembles { root with predicate } := ⟨rfl, rfl, rfl⟩
  rw [walk_eq_step, walk_eq_step, step]
  match root.step split record with
  | .error error => exact .error error
  | .ok (.stop stop) => exact .ok (resembles.here stop)
  | .ok (.enter child) => exact (SameWalk.refl _).below resembles.label

/-- Records that agree on the fields of a predicate have the same outcome or error for it, and those
that agree on all fields named below the root of a tree have the same prediction or error. What the
predicate of the root is makes no difference. -/
theorem predict_relevantFields (first second : Record) :
    (∀ predicate : Predicate, first.AgreesOn second predicate.fields →
      predicate.evaluate first = predicate.evaluate second) ∧
    (∀ (root : Node) split strategies,
      (∀ node ∈ root.descendants, first.AgreesOn second node.predicate.fields) →
      root.predict split strategies first = root.predict split strategies second) ∧
    ∀ (root : Node) predicate split strategies,
      SameAnswer (root.predict split strategies first)
        (Node.predict { root with predicate } split strategies first) := by
  refine ⟨?_, ?_, ?_⟩
  · intro predicate agree
    exact Predicate.evaluate_eq_of_agreesOn agree
  · intro root split strategies agree
    unfold predict
    rw [walk_eq_of_evaluate_eq fun node below => Predicate.evaluate_eq_of_agreesOn (agree node below)]
  · intro root predicate split strategies
    exact (walk_with_predicate root predicate).predict strategies

/-- A day of rain and strong wind. -/
def rainy : Record :=
  (Table.empty.insert "outlook" (.text "rain")).insert "wind" (.text "strong")

/-- `outing` does not ask for the day, not even with a root whose test fails on it. -/
theorem predict_relevantFields_outing :
    (∀ node ∈ outing.descendants,
      Record.AgreesOn (rainy.insert "day" (.text "Sunday")) rainy node.predicate.fields) ∧
    outing.predict .binary {} (rainy.insert "day" (.text "Sunday")) =
      outing.predict .binary {} rainy ∧
    SameAnswer (outing.predict .binary {} (rainy.insert "day" (.text "Sunday")))
      (Node.predict { outing with predicate := .compare "day" .lessThan (some "7") } .binary {}
        (rainy.insert "day" (.text "Sunday"))) := by
  have agree : ∀ node ∈ outing.descendants,
      Record.AgreesOn (rainy.insert "day" (.text "Sunday")) rainy node.predicate.fields := by
    decide
  obtain ⟨-, congruent, root⟩ := predict_relevantFields (rainy.insert "day" (.text "Sunday")) rainy
  exact ⟨agree, congruent outing .binary {} agree,
    root outing (.compare "day" .lessThan (some "7")) .binary {}⟩

end Node
end DecisionTree
