import DecisionTree.Proofs.Pmml.Document
import DecisionTree.Proofs.Predicate.Failure
import DecisionTree.Proofs.Tree.Decided

namespace DecisionTree

open Sequence (mem_toOption_iff)

variable {split : Split} {strategies : Strategies} {record : Record} {error : EvaluationError}

/-- An evaluation error on a well-formed tree is that of a child of a visited node, and comes from
an ordering test in its predicate. -/
theorem Node.WellFormed.exists_unordered {root : Node} (formed : root.WellFormed)
    (failed : root.predict split strategies record = .error (.evaluation error)) :
    ∃ above node, Leads split record root above node ∧ ∃ child ∈ node.children,
      child.predicate.evaluate record = .error error ∧
      ∃ part ∈ child.predicate.parts, part.Unordered record error := by
  obtain ⟨above, node, leads, child, below, failure⟩ := exists_child_of_predict_evaluation failed
  have inside : child ∈ root.nodes :=
    descendants_subset_nodes root (mem_descendants_of_mem_nodes leads.last_mem_nodes below)
  have parts := Predicate.WellFormed.exists_unordered (formed child inside) failure
  exact ⟨above, node, leads, child, below, failure, parts⟩

namespace Model

/-- Scoring a loaded model never meets an unknown operator or a comparison without its literal. If
it meets something that is not numeric, then the record has the field, and a child of a visited node
orders the field by a value or a literal that is no finite number. -/
theorem scoreWith_evaluationError {document name : String} {registry : Registry} {model : Model}
    (loaded : Pmml.load document = .ok registry)
    (registered : registry.models.get? name = some model) (strategies : Strategies)
    (record : Record) :
    (∀ kind keyword,
      model.scoreWith strategies record ≠ .error (.evaluation (.unknownOperator kind keyword))) ∧
    (∀ field operator,
      model.scoreWith strategies record ≠ .error (.evaluation (.missingValue field operator))) ∧
    ∀ field actual expected,
      model.scoreWith strategies record =
        .error (.evaluation (.notNumeric field actual expected)) →
      ∃ value, record.get? field = some value ∧ actual = value.display ∧
        ∃ above node, Node.Leads model.split record model.root above node ∧
          ∃ child ∈ node.children,
            child.predicate.evaluate record = .error (.notNumeric field actual expected) ∧
            ∃ operator ∈ Comparison.orderings,
              .compare field operator (some expected) ∈ child.predicate.parts ∧
                (value.number? = none ∨ Number.finite? expected = none) := by
  have formed := Pmml.load_wellFormed loaded name model registered
  refine ⟨fun kind keyword failed => ?_, fun field operator failed => ?_,
    fun field actual expected failed => ?_⟩
  · obtain ⟨_, _, _, _, _, _, _, _, unordered⟩ := formed.exists_unordered failed
    cases unordered
  · obtain ⟨_, _, _, _, _, _, _, _, unordered⟩ := formed.exists_unordered failed
    cases unordered
  · obtain ⟨above, node, leads, child, below, failure, part, inside, unordered⟩ :=
      formed.exists_unordered failed
    cases unordered with
    | @compare _ _ operator value ordering present apart =>
      exact ⟨value, present, rfl, above, node, leads, child, below, failure, operator, ordering,
        inside, apart⟩

/-- A document with one model, which asks whether the wind is below a limit. -/
def limitDocument : String :=
  "<PMML><TreeModel><Node><True/><Node><CompoundPredicate booleanOperator=\"and\">"
    ++ "<SimplePredicate field=\"wind\" operator=\"lessThan\" value=\"30\"/>"
    ++ "</CompoundPredicate></Node></Node></TreeModel></PMML>"

/-- A record whose wind is no number. -/
def stormy : Record :=
  Table.empty.insert "wind" (.text "strong")

theorem scoreWith_evaluationError_limit :
    ∃ registry model, Pmml.load limitDocument = .ok registry ∧
      registry.models.get? "model-0" = some model ∧
      model.scoreWith {} stormy = .error (.evaluation (.notNumeric "wind" "strong" "30")) ∧
      ∃ value, stormy.get? "wind" = some value ∧ "strong" = value.display ∧
        ∃ above node, Node.Leads model.split stormy model.root above node ∧
          ∃ child ∈ node.children,
            child.predicate.evaluate stormy = .error (.notNumeric "wind" "strong" "30") ∧
            ∃ operator ∈ Comparison.orderings,
              .compare "wind" operator (some "30") ∈ child.predicate.parts ∧
                (value.number? = none ∨ Number.finite? "30" = none) := by
  have found : ∃ registry ∈ (Pmml.load limitDocument).toOption,
      ∃ model ∈ registry.models.get? "model-0",
        (model.scoreWith {} stormy).map (fun _ => ()) =
          .error (.evaluation (.notNumeric "wind" "strong" "30")) := by
    decide +kernel
  obtain ⟨registry, loaded, model, registered, failed⟩ := found
  rw [Sequence.map_eq_error_iff] at failed
  rw [mem_toOption_iff] at loaded
  exact ⟨registry, model, loaded, registered, failed,
    (scoreWith_evaluationError loaded registered {} stormy).2.2 "wind" "strong" "30" failed⟩

end Model
end DecisionTree
