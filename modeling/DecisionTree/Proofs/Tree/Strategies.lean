import DecisionTree.Proofs.Tree.Decided

/-!
Strategies decide only where the walk stops, never where it goes. Whatever they are, the errors of
the walk and the nodes visited are the same, and at a leaf the prediction is too. A missing value
strategy is refused exactly if it is not carried out and the walk ends above the leaves with a child
that is unknown and none that holds.
-/

namespace DecisionTree

variable {split : Split} {record : Record} {strategies others : Strategies}
  {before after : Prediction}

theorem Walk.conclude_of_leaf {walk : Walk} (ends : walk.stop = .leaf) (strategies : Strategies) :
    walk.conclude strategies = .ok walk.lastPrediction := by
  unfold conclude
  rw [ends]

/-- Under a missing value strategy that is carried out every walk has a prediction. -/
theorem Walk.exists_of_supported (walk : Walk) (strategies : Strategies)
    (supported : strategies.missingValue.isSupported = true) :
    ∃ prediction, walk.conclude strategies = .ok prediction := by
  cases concluded : walk.conclude strategies with
  | ok prediction => exact ⟨prediction, rfl⟩
  | error error =>
    have refused := (conclude_eq_error_iff.mp concluded).2.1
    rw [supported] at refused
    cases refused

namespace Node

variable {root node : Node} {stop : Stop}

/-- An inner node with no child that holds and at least one that is unknown. -/
structure Undecided (record : Record) (node : Node) : Prop where
  inner : node.isLeaf = false
  passed : ∀ child ∈ node.children, child.predicate.evaluate record ≠ .ok .yes
  unknown : ∃ child ∈ node.children, child.predicate.evaluate record = .ok .unknown

theorem Steps.eq_leaf_iff (stops : node.Steps split record (.ok (.stop stop))) :
    stop = .leaf ↔ node.isLeaf = true := by
  cases stops with
  | leaf childless => simp [isLeaf, childless]
  | undecided _ _ below _ => simp [isLeaf_eq_false below]
  | noneHolds inner _ => simp [isLeaf, inner]

theorem Steps.eq_undecided_iff (stops : node.Steps split record (.ok (.stop stop))) :
    stop = .undecided ↔ node.Undecided record := by
  cases stops with
  | leaf childless =>
    refine iff_of_false (by simp) ?_
    intro undecided
    obtain ⟨child, below, _⟩ := undecided.unknown
    simp [childless] at below
  | @undecided child _ passed below unknown =>
    exact iff_of_true rfl ⟨isLeaf_eq_false below, passed, child, below, unknown⟩
  | noneHolds _ failing =>
    refine iff_of_false (by simp) ?_
    intro undecided
    obtain ⟨child, below, unknown⟩ := undecided.unknown
    cases unknown.symm.trans (failing child below)

/-- Predictions under different strategies come from one walk. -/
theorem exists_walk_of_predict (first : root.predict split strategies record = .ok before)
    (second : root.predict split others record = .ok after) :
    ∃ walk, root.walk split record = .ok walk ∧ walk.conclude strategies = .ok before ∧
      walk.conclude others = .ok after := by
  obtain ⟨walk, walked, concluded⟩ := predict_eq_ok_iff.mp first
  obtain ⟨other, again, decided⟩ := predict_eq_ok_iff.mp second
  cases walked.symm.trans again
  exact ⟨walk, walked, concluded, decided⟩

theorem predict_path_eq (first : root.predict split strategies record = .ok before)
    (second : root.predict split others record = .ok after) : before.path = after.path := by
  obtain ⟨walk, _, concluded, decided⟩ := exists_walk_of_predict first second
  rw [Walk.path_of_conclude concluded, Walk.path_of_conclude decided]

theorem predict_eq_of_leaf (first : root.predict split strategies record = .ok before)
    (second : root.predict split others record = .ok after) {last : Node}
    (final : before.path.getLast? = some last) (leaf : last.isLeaf = true) : before = after := by
  obtain ⟨walk, walked, concluded, decided⟩ := exists_walk_of_predict first second
  rw [Walk.path_of_conclude concluded, Walk.getLast?_path] at final
  cases final
  have ends := (walk_eq_ok_iff.mp walked).2.eq_leaf_iff.mpr leaf
  rw [Walk.conclude_of_leaf ends] at concluded decided
  exact Except.ok.inj (concluded.symm.trans decided)

/-- A missing value strategy is refused where the walk ends undecided. -/
theorem predict_eq_notSupported_iff {strategy : MissingValueStrategy} :
    root.predict split strategies record = .error (.notSupported strategy) ↔
      strategy = strategies.missingValue ∧ strategy.isSupported = false ∧
        ∃ walk, root.walk split record = .ok walk ∧ walk.last.Undecided record := by
  rw [predict_eq_error_iff]
  constructor
  · rintro (⟨cause, _, foreign⟩ | ⟨walk, walked, concluded⟩)
    · cases cause <;> cases foreign
    · obtain ⟨ends, refused, same⟩ := Walk.conclude_eq_error_iff.mp concluded
      cases same
      have stops := (walk_eq_ok_iff.mp walked).2
      exact ⟨rfl, refused, walk, walked, stops.eq_undecided_iff.mp ends⟩
  · rintro ⟨rfl, refused, walk, walked, undecided⟩
    have ends := (walk_eq_ok_iff.mp walked).2.eq_undecided_iff.mpr undecided
    exact .inr ⟨walk, walked, Walk.conclude_eq_error_iff.mpr ⟨ends, refused, rfl⟩⟩

/-- The walk ends where the prediction does that falls back on the last node. -/
theorem exists_walk_iff_predict {holds : Node → Prop} :
    (∃ walk, root.walk split record = .ok walk ∧ holds walk.last) ↔
      ∃ prediction last,
        root.predict split { strategies with missingValue := .lastPrediction } record =
          .ok prediction ∧ prediction.path.getLast? = some last ∧ holds last := by
  constructor
  · rintro ⟨walk, walked, final⟩
    obtain ⟨prediction, concluded⟩ :=
      walk.exists_of_supported { strategies with missingValue := .lastPrediction } rfl
    refine ⟨prediction, walk.last, predict_eq_ok_iff.mpr ⟨walk, walked, concluded⟩, ?_, final⟩
    rw [Walk.path_of_conclude concluded, Walk.getLast?_path]
  · rintro ⟨prediction, last, predicted, same, final⟩
    obtain ⟨walk, walked, concluded⟩ := predict_eq_ok_iff.mp predicted
    rw [Walk.path_of_conclude concluded, Walk.getLast?_path] at same
    cases same
    exact ⟨walk, walked, final⟩

/-- Strategies have no part in the way of the walk. Its errors are the same under all of them, and
so are the nodes it visits, and the whole prediction if the last one is a leaf. A strategy is
refused exactly if it is the missing value strategy, is not carried out, and the walk ends at an
inner node with no child that holds and at least one that is unknown. -/
theorem predict_strategies (root : Node) (split : Split) (record : Record)
    (strategies others : Strategies) :
    (∀ error, root.predict split strategies record = .error (.evaluation error) →
      root.predict split others record = .error (.evaluation error)) ∧
    (∀ label count,
      root.predict split strategies record = .error (.multipleTrueChildren label count) →
      root.predict split others record = .error (.multipleTrueChildren label count)) ∧
    (∀ before after, root.predict split strategies record = .ok before →
      root.predict split others record = .ok after →
      before.path = after.path ∧
        ∀ last, before.path.getLast? = some last → last.isLeaf = true → before = after) ∧
    ∀ strategy, root.predict split strategies record = .error (.notSupported strategy) ↔
      strategy = strategies.missingValue ∧ strategy.isSupported = false ∧
        ∃ prediction last,
          root.predict split { strategies with missingValue := .lastPrediction } record =
            .ok prediction ∧ prediction.path.getLast? = some last ∧ last.Undecided record := by
  have errors (cause : WalkError)
      (failed : root.predict split strategies record = .error cause.toScoreError) :
      root.predict split others record = .error cause.toScoreError := by
    rw [predict_eq_toScoreError_iff] at failed ⊢
    exact failed
  refine ⟨fun error => errors (.evaluation error),
    fun label count => errors (.multipleTrueChildren label count), ?_, ?_⟩
  · intro before after first second
    refine ⟨predict_path_eq first second, ?_⟩
    intro last final leaf
    exact predict_eq_of_leaf first second final leaf
  · intro strategy
    rw [predict_eq_notSupported_iff, exists_walk_iff_predict]

/-- Two limits for the wind, where the second one is passed whenever the first one is. -/
def limits : Node where
  predicate := .always
  score := some "go"
  children := [
    { predicate := .compare "wind" .greaterThan (some "60"), score := some "stay" },
    { predicate := .compare "wind" .greaterThan (some "30"), score := some "wait" }]

theorem predict_strategies_limits :
    limits.predict .binary ⟨.aggregateNodes, .returnLastPrediction⟩
        (Table.empty.insert "wind" (.text "strong")) =
      .error (.evaluation (.notNumeric "wind" "strong" "60")) ∧
    limits.predict .binary ⟨.aggregateNodes, .returnLastPrediction⟩
        (Table.empty.insert "wind" (.text "70")) = .error (.multipleTrueChildren "go" 2) ∧
    (∃ before after,
      limits.predict .binary {} (Table.empty.insert "wind" (.text "40")) = .ok before ∧
      limits.predict .binary ⟨.aggregateNodes, .returnLastPrediction⟩
        (Table.empty.insert "wind" (.text "40")) = .ok after ∧ before = after) ∧
    ∃ prediction last,
      limits.predict .binary ⟨.lastPrediction, .returnNullPrediction⟩ Table.empty =
        .ok prediction ∧
      prediction.path.getLast? = some last ∧ last.Undecided Table.empty := by
  have strong : limits.predict .binary {} (Table.empty.insert "wind" (.text "strong")) =
      .error (.evaluation (.notNumeric "wind" "strong" "60")) := rfl
  have storm : limits.predict .binary {} (Table.empty.insert "wind" (.text "70")) =
      .error (.multipleTrueChildren "go" 2) := rfl
  have breeze : limits.predict .binary {} (Table.empty.insert "wind" (.text "40")) = .ok _ := rfl
  have again : limits.predict .binary ⟨.aggregateNodes, .returnLastPrediction⟩
      (Table.empty.insert "wind" (.text "40")) = .ok _ := rfl
  have refused : limits.predict .binary {} Table.empty = .error (.notSupported .none) := rfl
  refine ⟨?_, ?_, ⟨_, _, breeze, again, ?_⟩, ?_⟩
  · exact (predict_strategies limits .binary _ {} _).1 _ strong
  · exact (predict_strategies limits .binary _ {} _).2.1 _ _ storm
  · exact ((predict_strategies limits .binary _ {} _).2.2.1 _ _ breeze again).2 _ rfl rfl
  · exact (((predict_strategies limits .binary Table.empty {} {}).2.2.2 .none).mp refused).2.2

end Node
end DecisionTree
