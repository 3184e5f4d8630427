import DecisionTree.Proofs.Predicate.Completeness
import DecisionTree.Proofs.Tree.Walk

namespace DecisionTree

/-- The record has every field that a test below the root names. -/
def Record.CoversBelow (record : Record) (root : Node) : Prop :=
  ∀ node ∈ root.descendants, record.Covers node.predicate.fields

instance (record : Record) (root : Node) : Decidable (record.CoversBelow root) :=
  inferInstanceAs (Decidable (∀ node ∈ root.descendants, record.Covers node.predicate.fields))

variable {split : Split} {record : Record} {strategies others : Strategies}

theorem Walk.conclude_congr {walk : Walk}
    (missing : walk.stop = .undecided → strategies.missingValue = others.missingValue)
    (failing : walk.stop = .noneHolds → strategies.noTrueChild = others.noTrueChild) :
    walk.conclude strategies = walk.conclude others := by
  unfold conclude
  cases ends : walk.stop with
  | leaf => rfl
  | undecided => simp only [missing ends]
  | noneHolds => simp only [failing ends]

/-- The one error of a strategy is a missing value strategy that is not carried out. -/
theorem Walk.conclude_eq_error_iff {walk : Walk} {error : ScoreError} :
    walk.conclude strategies = .error error ↔
      walk.stop = .undecided ∧ strategies.missingValue.isSupported = false ∧
        error = .notSupported strategies.missingValue := by
  unfold conclude
  cases walk.stop with
  | leaf => simp
  | undecided => cases strategies.missingValue <;> simp [MissingValueStrategy.isSupported, eq_comm]
  | noneHolds => cases strategies.noTrueChild <;> simp

private theorem WalkError.toScoreError_inj {first second : WalkError} :
    first.toScoreError = second.toScoreError ↔ first = second := by
  cases first <;> cases second <;> simp [toScoreError]

namespace Node

variable {root node : Node}

theorem predict_congr
    (missing : ∀ node ∈ root.nodes, node.Steps split record (.ok (.stop .undecided)) →
      strategies.missingValue = others.missingValue)
    (failing : ∀ node ∈ root.nodes, node.Steps split record (.ok (.stop .noneHolds)) →
      strategies.noTrueChild = others.noTrueChild) :
    root.predict split strategies record = root.predict split others record := by
  unfold predict
  cases walked : root.walk split record with
  | error error => rfl
  | ok walk =>
    obtain ⟨leads, stops⟩ := walk_eq_ok_iff.mp walked
    apply Walk.conclude_congr
    · intro ends
      exact missing walk.last leads.last_mem_nodes (ends ▸ stops)
    · intro ends
      exact failing walk.last leads.last_mem_nodes (ends ▸ stops)

/-- Strategies add errors of their own and leave those of the walk as they are. -/
theorem predict_eq_toScoreError_iff (cause : WalkError) :
    root.predict split strategies record = .error cause.toScoreError ↔
      root.walk split record = .error cause := by
  unfold predict
  cases root.walk split record with
  | error error => simp [WalkError.toScoreError_inj]
  | ok walk =>
    have foreign : ¬walk.conclude strategies = .error cause.toScoreError := by
      intro concluded
      have own := (Walk.conclude_eq_error_iff.mp concluded).2.2
      cases cause <;> cases own
    simp [foreign]

/-- An evaluation error is that of a child of a node that the walk gets to. -/
theorem exists_child_of_predict_evaluation {error : EvaluationError}
    (predicted : root.predict split strategies record = .error (.evaluation error)) :
    ∃ above node, Leads split record root above node ∧
      ∃ child ∈ node.children, child.predicate.evaluate record = .error error := by
  have walked := (predict_eq_toScoreError_iff (.evaluation error)).mp predicted
  obtain ⟨above, node, leads, fails⟩ := walk_eq_error_iff.mp walked
  refine ⟨above, node, leads, ?_⟩
  cases fails with
  | @failed _ _ child _ siblings _ failure => exact ⟨child, by simp [siblings], failure⟩

theorem steps_of_predict_multipleTrueChildren {label : String} {count : Nat}
    (predicted : root.predict split strategies record =
      .error (.multipleTrueChildren label count)) :
    ∃ node ∈ root.nodes, node.Steps split record (.error (.multipleTrueChildren label count)) := by
  have walked := (predict_eq_toScoreError_iff (.multipleTrueChildren label count)).mp predicted
  obtain ⟨_, last, leads, fails⟩ := walk_eq_error_iff.mp walked
  exact ⟨last, leads.last_mem_nodes, fails⟩

theorem steps_of_predict_notSupported {strategy : MissingValueStrategy}
    (predicted : root.predict split strategies record = .error (.notSupported strategy)) :
    ∃ node ∈ root.nodes, node.Steps split record (.ok (.stop .undecided)) := by
  rcases predict_eq_error_iff.mp predicted with ⟨cause, _, same⟩ | ⟨walk, walked, concluded⟩
  · cases cause <;> cases same
  · obtain ⟨leads, stops⟩ := walk_eq_ok_iff.mp walked
    have ends := (Walk.conclude_eq_error_iff.mp concluded).1
    exact ⟨walk.last, leads.last_mem_nodes, ends ▸ stops⟩

theorem decided_of_coversBelow
    (resolvable : ∀ node ∈ root.descendants, ∀ part ∈ node.predicate.parts, part.isResolvable)
    (covered : record.CoversBelow root) :
    ∀ node ∈ root.descendants, node.predicate.evaluate record ≠ .ok .unknown := by
  intro node below
  exact Predicate.evaluate_ne_unknown (resolvable node below) (covered node below)

/-- No walk stops for an unknown outcome if no predicate below the root has one. -/
theorem not_undecided
    (decided : ∀ node ∈ root.descendants, node.predicate.evaluate record ≠ .ok .unknown)
    (inside : node ∈ root.nodes) : ¬node.Steps split record (.ok (.stop .undecided)) := by
  intro stops
  cases stops with
  | undecided _ _ below unknown =>
    exact decided _ (mem_descendants_of_mem_nodes inside below) unknown

end Node
end DecisionTree
