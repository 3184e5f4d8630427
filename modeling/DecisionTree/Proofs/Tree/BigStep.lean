import DecisionTree.Proofs.Tree.Walk

namespace DecisionTree

def Prediction.below (prediction : Prediction) (node : Node) : Prediction :=
  { prediction with path := node :: prediction.path }

namespace Node

/-- The node's own score with the confidence it has there, or 0 without a score. -/
def ownPrediction (node : Node) : Prediction where
  value := node.score
  confidence :=
    match node.score with
    | some score => node.confidenceFor score
    | none => 0
  path := [node]

/-- No value, with confidence 0. -/
def noPrediction (node : Node) : Prediction where
  value := none
  confidence := 0
  path := [node]

/-- What a strategy answers at a node with unknown children. -/
def whenUndecided (node : Node) : MissingValueStrategy → Except ScoreError Prediction
  | .nullPrediction => .ok node.noPrediction
  | .lastPrediction => .ok node.ownPrediction
  | strategy => .error (.notSupported strategy)

/-- What a strategy answers at a node all of whose children fail. -/
def whenNoneHolds (node : Node) : NoTrueChildStrategy → Prediction
  | .returnNullPrediction => node.noPrediction
  | .returnLastPrediction => node.ownPrediction

/-- The result of scoring each node. -/
inductive Scores (split : Split) (strategies : Strategies) (record : Record) :
    Node → Except ScoreError Prediction → Prop
  | leaf {node : Node} (ends : node.Steps split record (.ok (.stop .leaf))) :
      Scores split strategies record node (.ok node.ownPrediction)
  | failed {node : Node} {error : EvaluationError}
      (fails : node.Steps split record (.error (.evaluation error))) :
      Scores split strategies record node (.error (.evaluation error))
  | crowded {node : Node} {label : String} {count : Nat}
      (fails : node.Steps split record (.error (.multipleTrueChildren label count))) :
      Scores split strategies record node (.error (.multipleTrueChildren label count))
  | entered {node child : Node} {result : Except ScoreError Prediction}
      (enters : node.Steps split record (.ok (.enter child)))
      (rest : Scores split strategies record child result) :
      Scores split strategies record node (result.map (·.below node))
  | undecided {node : Node} (ends : node.Steps split record (.ok (.stop .undecided))) :
      Scores split strategies record node (node.whenUndecided strategies.missingValue)
  | noneHolds {node : Node} (ends : node.Steps split record (.ok (.stop .noneHolds))) :
      Scores split strategies record node (.ok (node.whenNoneHolds strategies.noTrueChild))

variable {split : Split} {strategies : Strategies} {record : Record} {root node child : Node}

theorem lastPrediction_eq_ownPrediction (node : Node) (stop : Stop) :
    (Walk.mk [] node stop).lastPrediction = node.ownPrediction := by
  unfold Walk.lastPrediction ownPrediction
  cases node.score <;> rfl

private theorem conclude_below (walk : Walk) (node : Node) :
    (walk.below node).conclude strategies = (walk.conclude strategies).map (·.below node) := by
  obtain ⟨above, last, stop⟩ := walk
  cases stop with
  | leaf => rfl
  | undecided =>
    simp only [Walk.conclude, Walk.below]
    cases strategies.missingValue <;> rfl
  | noneHolds =>
    simp only [Walk.conclude, Walk.below]
    cases strategies.noTrueChild <;> rfl

theorem predict_of_enter (enters : node.Steps split record (.ok (.enter child))) :
    node.predict split strategies record =
      (child.predict split strategies record).map (·.below node) := by
  unfold predict
  rw [walk_of_enter enters]
  cases child.walk split record with
  | error error => rfl
  | ok walk => exact conclude_below walk node

theorem predict_of_stop {stop : Stop} (ends : node.Steps split record (.ok (.stop stop))) :
    node.predict split strategies record = (Walk.mk [] node stop).conclude strategies := by
  unfold predict
  rw [(Leads.here node).walk_of_stop ends]

theorem predict_of_error {error : WalkError} (fails : node.Steps split record (.error error)) :
    node.predict split strategies record = .error error.toScoreError := by
  unfold predict
  rw [(Leads.here node).walk_of_error fails]

theorem conclude_leaf (node : Node) :
    (Walk.mk [] node .leaf).conclude strategies = .ok node.ownPrediction :=
  congrArg Except.ok (lastPrediction_eq_ownPrediction node .leaf)

theorem conclude_undecided (node : Node) :
    (Walk.mk [] node .undecided).conclude strategies =
      node.whenUndecided strategies.missingValue := by
  simp only [Walk.conclude, lastPrediction_eq_ownPrediction]
  cases strategies.missingValue <;> rfl

theorem conclude_noneHolds (node : Node) :
    (Walk.mk [] node .noneHolds).conclude strategies =
      .ok (node.whenNoneHolds strategies.noTrueChild) := by
  simp only [Walk.conclude, lastPrediction_eq_ownPrediction]
  cases strategies.noTrueChild <;> rfl

theorem scores_complete {result : Except ScoreError Prediction}
    (scores : Scores split strategies record root result) :
    root.predict split strategies record = result := by
  induction scores with
  | leaf ends => rw [predict_of_stop ends, conclude_leaf]
  | failed fails => rw [predict_of_error fails, WalkError.toScoreError]
  | crowded fails => rw [predict_of_error fails, WalkError.toScoreError]
  | entered enters _ ih => rw [predict_of_enter enters, ih]
  | undecided ends => rw [predict_of_stop ends, conclude_undecided]
  | noneHolds ends => rw [predict_of_stop ends, conclude_noneHolds]

theorem scores_sound (root : Node) :
    Scores split strategies record root (root.predict split strategies record) := by
  induction root using Node.induction with
  | parent node ih =>
    match outcome : node.step split record with
    | .error (.evaluation error) =>
      have fails := step_eq_iff.mp outcome
      rw [predict_of_error fails]
      exact .failed fails
    | .error (.multipleTrueChildren label count) =>
      have fails := step_eq_iff.mp outcome
      rw [predict_of_error fails]
      exact .crowded fails
    | .ok (.enter child) =>
      have enters := step_eq_iff.mp outcome
      rw [predict_of_enter enters]
      exact .entered enters (ih child enters.child_mem)
    | .ok (.stop .leaf) =>
      have ends := step_eq_iff.mp outcome
      rw [predict_of_stop ends, conclude_leaf]
      exact .leaf ends
    | .ok (.stop .undecided) =>
      have ends := step_eq_iff.mp outcome
      rw [predict_of_stop ends, conclude_undecided]
      exact .undecided ends
    | .ok (.stop .noneHolds) =>
      have ends := step_eq_iff.mp outcome
      rw [predict_of_stop ends, conclude_noneHolds]
      exact .noneHolds ends

theorem predict_eq_iff_scores {result : Except ScoreError Prediction} :
    root.predict split strategies record = result ↔
      Scores split strategies record root result := by
  constructor
  · rintro rfl
    exact scores_sound root
  · exact scores_complete

/-- Scoring is what the recursion says. A prediction comes with the way it was found on: from the
root down, always to the first child that holds, to a node where the walk stops; the way is at most
one node longer than the tree is deep. -/
theorem predict_bigStep (split : Split) (strategies : Strategies) (record : Record) (root : Node) :
    (∀ result, root.predict split strategies record = result ↔
      Scores split strategies record root result) ∧
    ∀ prediction, root.predict split strategies record = .ok prediction →
      prediction.path.head? = some root ∧
      prediction.path.IsChain (fun node child => node.Steps split record (.ok (.enter child))) ∧
      (∃ last stop, prediction.path.getLast? = some last ∧
        last.Steps split record (.ok (.stop stop))) ∧
      prediction.path.length ≤ root.depth + 1 := by
  refine ⟨fun _ => predict_eq_iff_scores, fun prediction predicted => ?_⟩
  obtain ⟨walk, walked, concluded⟩ := predict_eq_ok_iff.mp predicted
  obtain ⟨leads, stops⟩ := walk_eq_ok_iff.mp walked
  have path : prediction.path = walk.above ++ [walk.last] := Walk.path_of_conclude concluded
  have lower := leads.length_add_depth_le
  rw [path]
  refine ⟨leads.head?_path, leads.isChain_path, ⟨walk.last, walk.stop, by simp, stops⟩, ?_⟩
  rw [List.length_append, List.length_singleton]
  omega

theorem predict_bigStep_outing :
    ∃ prediction,
      outing.predict .binary {} (Table.empty.insert "outlook" (.text "sun")) = .ok prediction ∧
      prediction.path.head? = some outing ∧
      prediction.path.IsChain (fun node child =>
        node.Steps .binary (Table.empty.insert "outlook" (.text "sun")) (.ok (.enter child))) ∧
      (∃ last stop, prediction.path.getLast? = some last ∧
        last.Steps .binary (Table.empty.insert "outlook" (.text "sun")) (.ok (.stop stop))) ∧
      prediction.path.length ≤ outing.depth + 1 :=
  ⟨_, rfl, (predict_bigStep .binary {} (Table.empty.insert "outlook" (.text "sun")) outing).2 _ rfl⟩

end Node
end DecisionTree
