import DecisionTree.Proofs.Tree.Strategies
import DecisionTree.Proofs.Validation.Findings

namespace DecisionTree

variable {split : Split} {record : Record} {strategies : Strategies}

namespace Node

variable {root node last : Node} {prediction : Prediction} {label : String} {count : Nat}

private theorem exists_score_of_leaf (sound : node.violations split = [])
    (leaf : node.isLeaf = true) :
    ∃ label, node.score = some label := by
  rw [← Option.ne_none_iff_exists']
  intro unscored
  exact not_violates_of_violations_eq_nil sound .leafWithoutScore
    (.leafWithoutScore (List.isEmpty_iff.mp leaf) unscored)

private theorem length_children_le_two (sound : node.violations split = [])
    (binary : split = .binary) :
    node.children.length ≤ 2 := by
  by_contra many
  exact not_violates_of_violations_eq_nil sound _ (.tooManyChildren binary (Nat.not_le.mp many))

/-- Where children are in conflict there are at least two, and a sound node has no more. -/
theorem Steps.count_eq_two (sound : node.violations split = [])
    (crowded : node.Steps split record (.error (.multipleTrueChildren label count))) :
    count = 2 := by
  cases crowded with
  | crowded _ binary several =>
    have most := List.countP_le_length (p := holds record) (l := node.children)
    exact Nat.le_antisymm (most.trans (length_children_le_two sound binary)) several

/-- A prediction ends at a node of the tree, and if that is a leaf its value is the leaf's score. -/
theorem exists_last_of_predict (predicted : root.predict split strategies record = .ok prediction) :
    ∃ last ∈ root.nodes, prediction.path.getLast? = some last ∧
      (last.isLeaf = true → prediction.value = last.score) := by
  obtain ⟨walk, walked, concluded⟩ := predict_eq_ok_iff.mp predicted
  obtain ⟨leads, stops⟩ := walk_eq_ok_iff.mp walked
  refine ⟨walk.last, leads.last_mem_nodes, ?_, ?_⟩
  · rw [Walk.path_of_conclude concluded, Walk.getLast?_path]
  · intro leaf
    rw [Walk.conclude_of_leaf (stops.eq_leaf_iff.mpr leaf)] at concluded
    cases concluded
    rfl

end Node

namespace Model

/-- If the findings about a model are worded as warnings, or there are none, then a prediction that
ends at a leaf has that leaf's score for its value, so that one without a value ends at an inner
node; and children in conflict are always two. -/
theorem scoreWith_of_onlyWarnings {model : Model}
    (usable : Finding.onlyWarnings (model.findings.map Finding.message) = true)
    (strategies : Strategies) (record : Record) :
    (∀ prediction, model.scoreWith strategies record = .ok prediction →
      ∃ last ∈ model.root.nodes, prediction.path.getLast? = some last ∧
        (last.isLeaf = true →
          ∃ label, last.score = some label ∧ prediction.value = some label) ∧
        (prediction.value = none → last.isLeaf = false)) ∧
    ∀ label count,
      model.scoreWith strategies record = .error (.multipleTrueChildren label count) →
        count = 2 := by
  rw [onlyWarnings_messages, isUsable_iff] at usable
  constructor
  · intro prediction scored
    obtain ⟨last, inside, final, scoreOfLeaf⟩ := Node.exists_last_of_predict scored
    have valueOfLeaf (leaf : last.isLeaf = true) :
        ∃ label, last.score = some label ∧ prediction.value = some label := by
      obtain ⟨label, scored⟩ := Node.exists_score_of_leaf (usable last inside) leaf
      exact ⟨label, scored, (scoreOfLeaf leaf).trans scored⟩
    refine ⟨last, inside, final, valueOfLeaf, ?_⟩
    intro unvalued
    rw [Bool.eq_false_iff]
    intro leaf
    obtain ⟨label, -, valued⟩ := valueOfLeaf leaf
    cases unvalued.symm.trans valued
  · intro label count failed
    obtain ⟨node, inside, crowded⟩ := Node.steps_of_predict_multipleTrueChildren failed
    exact crowded.count_eq_two (usable node inside)

/-- Two limits for the wind below a root whose predicate is never asked, which is a warning. -/
def guardedLimits : Model where
  root := {
    predicate := .compare "wind" .isNotMissing none
    score := some "go"
    children := [
      { predicate := .compare "wind" .greaterThan (some "60"), score := some "stay" },
      { predicate := .compare "wind" .greaterThan (some "30"), score := some "wait" }] }
  split := .binary

theorem scoreWith_of_onlyWarnings_guardedLimits :
    guardedLimits.findings ≠ [] ∧
    Finding.onlyWarnings (guardedLimits.findings.map Finding.message) = true ∧
    (∃ prediction last,
      guardedLimits.scoreWith {} (Table.empty.insert "wind" (.text "40")) = .ok prediction ∧
        prediction.path.getLast? = some last ∧ last.isLeaf = true ∧
        ∃ label, last.score = some label ∧ prediction.value = some label) ∧
    (∃ prediction last,
      guardedLimits.scoreWith { missingValue := .nullPrediction } Table.empty = .ok prediction ∧
        prediction.value = none ∧ prediction.path.getLast? = some last ∧ last.isLeaf = false) ∧
    ∃ label count,
      guardedLimits.scoreWith {} (Table.empty.insert "wind" (.text "70")) =
        .error (.multipleTrueChildren label count) ∧ count = 2 := by
  have usable : Finding.onlyWarnings (guardedLimits.findings.map Finding.message) = true := by
    decide +kernel
  have breeze : guardedLimits.scoreWith {} (Table.empty.insert "wind" (.text "40")) = .ok _ := rfl
  have unmeasured : guardedLimits.scoreWith { missingValue := .nullPrediction } Table.empty =
      .ok _ := rfl
  have storm : guardedLimits.scoreWith {} (Table.empty.insert "wind" (.text "70")) =
      .error (.multipleTrueChildren "go" 2) := rfl
  obtain ⟨leaf, -, final, valued, -⟩ := (scoreWith_of_onlyWarnings usable {} _).1 _ breeze
  obtain ⟨inner, -, last, -, above⟩ := (scoreWith_of_onlyWarnings usable _ _).1 _ unmeasured
  refine ⟨by decide +kernel, usable, ⟨_, leaf, breeze, final, ?_, ?_⟩,
    ⟨_, inner, unmeasured, rfl, last, above rfl⟩, "go", 2, storm,
    (scoreWith_of_onlyWarnings usable {} _).2 _ _ storm⟩
  · cases final; rfl
  · apply valued; cases final; rfl

end Model
end DecisionTree
