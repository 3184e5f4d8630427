import DecisionTree.Proofs.Pmml.Document
import DecisionTree.Proofs.Tree.Decided

namespace DecisionTree

private theorem Predicate.isResolvable_of_isProper {predicate : Predicate}
    (proper : predicate.isProper) :
    predicate.isResolvable := by
  cases predicate with
  | always | never | compare | member => rfl
  | compound operator operands =>
    cases operands with
    | nil => cases proper
    | cons => cases operator <;> rfl

/-- No predicate below the root of a well-formed tree is unknown on a complete record. -/
theorem Node.WellFormed.decided {root : Node} {record : Record} (formed : root.WellFormed)
    (complete : record.CoversBelow root) :
    ∀ node ∈ root.descendants, node.predicate.evaluate record ≠ .ok .unknown := by
  refine Node.decided_of_coversBelow (fun node below part member => ?_) complete
  have inside : node ∈ root.nodes := Node.descendants_subset_nodes root below
  exact Predicate.isResolvable_of_isProper (formed node inside part member)

namespace Model

/-- A loaded model does without the missing value strategy on a complete record: no test below the
root is unknown, no strategy is refused, and results agree whatever the strategy is. -/
theorem scoreWith_completeRecord {document name : String} {registry : Registry} {model : Model}
    {record : Record} (loaded : Pmml.load document = .ok registry)
    (registered : registry.models.get? name = some model)
    (complete : record.CoversBelow model.root) :
    (∀ node ∈ model.root.descendants, node.predicate.evaluate record ≠ .ok .unknown) ∧
    (∀ strategies strategy, model.scoreWith strategies record ≠ .error (.notSupported strategy)) ∧
    ∀ strategies others : Strategies, strategies.noTrueChild = others.noTrueChild →
      model.scoreWith strategies record = model.scoreWith others record := by
  have formed := Pmml.load_wellFormed loaded name model registered
  have decided := formed.decided complete
  refine ⟨decided, fun strategies strategy refused => ?_, fun strategies others failing => ?_⟩
  · obtain ⟨node, inside, stops⟩ := Node.steps_of_predict_notSupported refused
    exact Node.not_undecided decided inside stops
  · apply Node.predict_congr
    · exact fun node inside stops => absurd stops (Node.not_undecided decided inside)
    · exact fun _ _ _ => failing

/-- A document with one model, which asks whether there is wind. -/
def windDocument : String :=
  "<PMML><TreeModel><Node><True/><Node><SimplePredicate field=\"wind\" operator=\"equal\" "
    ++ "value=\"low\"/></Node></Node></TreeModel></PMML>"

theorem scoreWith_completeRecord_wind :
    ∃ registry model, Pmml.load windDocument = .ok registry ∧
      registry.models.get? "model-0" = some model ∧ model.root.descendants.length = 1 ∧
      ∀ strategies strategy,
        model.scoreWith strategies (Table.empty.insert "wind" (.text "high")) ≠
          .error (.notSupported strategy) := by
  have found : ∃ registry ∈ (Pmml.load windDocument).toOption,
      ∃ model ∈ registry.models.get? "model-0", model.root.descendants.length = 1 ∧
        Record.CoversBelow (Table.empty.insert "wind" (.text "high")) model.root := by
    decide +kernel
  obtain ⟨registry, loaded, model, registered, below, complete⟩ := found
  cases outcome : Pmml.load windDocument with
  | error error =>
    rw [outcome] at loaded
    cases loaded
  | ok other =>
    rw [outcome] at loaded
    cases loaded
    exact ⟨registry, model, rfl, registered, below,
      (scoreWith_completeRecord outcome registered complete).2.1⟩

end Model
end DecisionTree
