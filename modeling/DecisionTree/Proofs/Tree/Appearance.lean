import DecisionTree.Proofs.Tree.Walk

/-!
What scoring sees of a tree. A step sees the label of a node and the outcomes of its children; a
prediction shows the labels of the nodes visited, and the score of the last one with its confidence.
Whatever else there is to the nodes has no part in the answer.
-/

namespace DecisionTree

namespace Node

/-- Steps that fail alike, stop alike, or enter the same child by number. -/
inductive SameStep (record : Record) (node other : Node) :
    Except WalkError Step → Except WalkError Step → Prop
  | error (error : WalkError) : SameStep record node other (.error error) (.error error)
  | stop (stop : Stop) : SameStep record node other (.ok (.stop stop)) (.ok (.stop stop))
  | enter {child twin : Node}
      (first : node.children[node.children.findIdx (holds record)]? = some child)
      (second : other.children[node.children.findIdx (holds record)]? = some twin) :
      SameStep record node other (.ok (.enter child)) (.ok (.enter twin))

variable {split : Split} {record record' : Record} {node other : Node}

theorem SameStep.eq {first second : Except WalkError Step}
    (same : SameStep record node node first second) : first = second := by
  cases same with
  | error | stop => rfl
  | enter first second => rw [Option.some.inj (first.symm.trans second)]

private theorem outcomes_eq_mapM_tests (children : List Node) :
    outcomes record children =
      (children.map (·.predicate.evaluate record)).mapM fun outcome => outcome := by
  rw [outcomes, List.mapM_map]
  rfl

private theorem holds_eq_beq (node : Node) :
    node.holds record = (node.predicate.evaluate record == .ok .yes) := by
  rw [Bool.eq_iff_iff, holds_iff, beq_iff_eq]

private theorem findIdx_holds (children : List Node) :
    children.findIdx (holds record) =
      (children.map (·.predicate.evaluate record)).findIdx (· == .ok .yes) := by
  rw [List.findIdx_map, funext holds_eq_beq]
  rfl

/-- A step sees the label of the node and the outcomes of the children, and nothing else of them. -/
theorem sameStep_of_tests (label : other.label = node.label)
    (tests : other.children.map (·.predicate.evaluate record') =
      node.children.map (·.predicate.evaluate record)) :
    SameStep record node other (node.step split record) (other.step split record') := by
  have leaf : other.isLeaf = node.isLeaf := by
    have same := congrArg List.isEmpty tests
    rwa [List.isEmpty_map, List.isEmpty_map] at same
  have evaluated : outcomes record' other.children = outcomes record node.children := by
    rw [outcomes_eq_mapM_tests, outcomes_eq_mapM_tests, tests]
  have first : other.children.findIdx (holds record') = node.children.findIdx (holds record) := by
    rw [findIdx_holds, findIdx_holds, tests]
  rw [step_eq, step_eq, leaf, label]
  split
  · exact .stop .leaf
  · simp only [evaluated]
    cases outcomes record node.children with
    | error error => exact .error _
    | ok truths =>
      simp only [List.find?_eq_getElem?_findIdx, first]
      split
      · exact .error _
      · have entered := congrArg (·[node.children.findIdx (holds record)]?) tests
        simp only [List.getElem?_map] at entered
        obtain ⟨nowhere, nowhere'⟩ | ⟨twin, child, twins, found, _⟩ :=
          Sequence.none_or_some_of_map_eq entered
        · rw [nowhere, nowhere']
          exact .stop _
        · rw [twins, found]
          exact .enter found twins

end Node

/-- Predictions that agree in the value, the confidence and the labels of the nodes visited. -/
structure Prediction.Agrees (first second : Prediction) : Prop where
  value : second.value = first.value
  confidence : second.confidence = first.confidence
  labels : second.labels = first.labels

inductive SameAnswer : Except ScoreError Prediction → Except ScoreError Prediction → Prop
  | ok {first second : Prediction} (agree : first.Agrees second) :
      SameAnswer (.ok first) (.ok second)
  | error (error : ScoreError) : SameAnswer (.error error) (.error error)

theorem SameAnswer.error_or_ok {first second : Except ScoreError Prediction}
    (same : SameAnswer first second) :
    (∃ error, first = .error error ∧ second = .error error) ∨
      ∃ before after, first = .ok before ∧ second = .ok after ∧ before.Agrees after := by
  cases same with
  | ok agree => exact .inr ⟨_, _, rfl, rfl, agree⟩
  | error error => exact .inl ⟨error, rfl, rfl⟩

/-- Nodes with one label, one score and one confidence for every value. -/
structure Node.Resembles (node other : Node) : Prop where
  label : other.label = node.label
  score : other.score = node.score
  confidenceFor : other.confidenceFor = node.confidenceFor

/-- Walks over nodes of the same labels to nodes that resemble one another, where both stop for the
same reason. -/
structure Walk.Resembles (walk other : Walk) : Prop where
  labels : other.path.map Node.label = walk.path.map Node.label
  last : walk.last.Resembles other.last
  stop : other.stop = walk.stop

/-- The same error, or walks that resemble one another. -/
inductive SameWalk : Except WalkError Walk → Except WalkError Walk → Prop
  | ok {walk other : Walk} (resembles : walk.Resembles other) : SameWalk (.ok walk) (.ok other)
  | error (error : WalkError) : SameWalk (.error error) (.error error)

variable {node other root : Node} {walk twin : Walk}

theorem Node.Resembles.refl (node : Node) : node.Resembles node := ⟨rfl, rfl, rfl⟩

theorem Walk.Resembles.refl (walk : Walk) : walk.Resembles walk := ⟨rfl, .refl _, rfl⟩

theorem SameWalk.refl (result : Except WalkError Walk) : SameWalk result result := by
  cases result with
  | ok walk => exact .ok (.refl walk)
  | error error => exact .error error

/-- Walks that end where they begin. -/
theorem Node.Resembles.here (resembles : node.Resembles other) (stop : Stop) :
    Walk.Resembles ⟨[], node, stop⟩ ⟨[], other, stop⟩ :=
  ⟨congrArg (fun label => [label]) resembles.label, resembles, rfl⟩

theorem SameWalk.below {first second : Except WalkError Walk} (same : SameWalk first second)
    (label : other.label = node.label) :
    SameWalk (first.map (·.below node)) (second.map (·.below other)) := by
  cases same with
  | error error => exact .error error
  | ok resembles =>
    refine .ok ⟨?_, resembles.last, resembles.stop⟩
    exact congrArg₂ List.cons label resembles.labels

namespace Walk.Resembles

private theorem lastPrediction (resembles : walk.Resembles twin) :
    walk.lastPrediction.Agrees twin.lastPrediction := by
  refine ⟨resembles.last.score, ?_, resembles.labels⟩
  unfold Walk.lastPrediction
  rw [resembles.last.score, resembles.last.confidenceFor]

private theorem nullPrediction (resembles : walk.Resembles twin) :
    walk.nullPrediction.Agrees twin.nullPrediction :=
  ⟨rfl, rfl, resembles.labels⟩

/-- The strategies make the same of both walks. -/
theorem conclude (resembles : walk.Resembles twin) (strategies : Strategies) :
    SameAnswer (walk.conclude strategies) (twin.conclude strategies) := by
  unfold Walk.conclude
  rw [resembles.stop]
  cases walk.stop with
  | leaf => exact .ok resembles.lastPrediction
  | undecided =>
    cases strategies.missingValue with
    | nullPrediction => exact .ok resembles.nullPrediction
    | lastPrediction => exact .ok resembles.lastPrediction
    | _ => exact .error _
  | noneHolds =>
    cases strategies.noTrueChild with
    | returnNullPrediction => exact .ok resembles.nullPrediction
    | returnLastPrediction => exact .ok resembles.lastPrediction

end Walk.Resembles

theorem SameWalk.predict {split : Split} {record : Record}
    (same : SameWalk (root.walk split record) (other.walk split record)) (strategies : Strategies) :
    SameAnswer (root.predict split strategies record) (other.predict split strategies record) := by
  unfold Node.predict
  generalize root.walk split record = first at same ⊢
  generalize other.walk split record = second at same ⊢
  cases same with
  | ok resembles => exact resembles.conclude strategies
  | error error => exact .error error.toScoreError

end DecisionTree
