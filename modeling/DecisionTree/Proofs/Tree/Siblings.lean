import DecisionTree.Proofs.Tree.Ambiguity
import DecisionTree.Proofs.Tree.Appearance

namespace DecisionTree

variable {record : Record}

/-- Trees that differ in the order of the children of nodes, at any level. -/
inductive Node.Reordered : Node → Node → Prop
  | parent (node : Node) {others children : List Node}
      (each : List.Forall₂ Node.Reordered node.children others) (order : others.Perm children) :
      Node.Reordered node { node with children }

namespace Node

section

variable {split : Split} {node child : Node} {error : EvaluationError}

/-- The only child that holds is entered. -/
theorem enters_of_alone
    (evaluated : ∀ child ∈ node.children, ∃ truth, child.predicate.evaluate record = .ok truth)
    (alone : node.children.countP (holds record) ≤ 1) (below : child ∈ node.children)
    (holding : child.predicate.evaluate record = .ok .yes) :
    node.Steps split record (.ok (.enter child)) := by
  obtain ⟨before, after, siblings⟩ := List.append_of_mem below
  refine .entered evaluated (fun _ => alone) siblings ?_ holding
  intro sibling earlier second
  have some : 0 < before.countP (holds record) :=
    List.countP_pos_iff.mpr ⟨sibling, earlier, holds_iff.mpr second⟩
  rw [siblings, List.countP_append, List.countP_cons_of_pos (holds_iff.mpr holding)] at alone
  omega

private theorem fails_of_mem (below : child ∈ node.children)
    (failure : child.predicate.evaluate record = .error error) :
    ∃ first, node.Steps split record (.error (.evaluation first)) := by
  cases evaluated : outcomes record node.children with
  | ok truths =>
    obtain ⟨truth, success⟩ := outcomes_isOk_iff.mp ⟨truths, evaluated⟩ child below
    cases success.symm.trans failure
  | error first =>
    obtain ⟨before, child, after, siblings, earlier, failure⟩ := outcomes_eq_error_iff.mp evaluated
    exact ⟨first, .failed siblings earlier failure⟩

end

namespace Reordered

variable {node other child : Node}

theorem refl (node : Node) : node.Reordered node := by
  induction node using Node.induction with
  | parent node ih =>
    obtain ⟨id, predicate, score, recordCount, distributions, children⟩ := node
    exact .parent ⟨id, predicate, score, recordCount, distributions, children⟩
      (List.forall₂_same.mpr ih) (.refl children)

theorem predicate_eq (reordered : node.Reordered other) : other.predicate = node.predicate := by
  cases reordered
  rfl

theorem label_eq (reordered : node.Reordered other) : other.label = node.label := by
  cases reordered
  rfl

private theorem resembles (reordered : node.Reordered other) : node.Resembles other := by
  cases reordered
  exact ⟨rfl, rfl, rfl⟩

private theorem labels_eq {nodes others : List Node} (each : List.Forall₂ Reordered nodes others) :
    others.map label = nodes.map label := by
  induction each with
  | nil => rfl
  | cons same _ ih => rw [List.map_cons, List.map_cons, same.label_eq, ih]

theorem exists_child (reordered : node.Reordered other) (below : child ∈ node.children) :
    ∃ twin ∈ other.children, child.Reordered twin := by
  cases reordered with
  | parent _ each order =>
    obtain ⟨twin, member, same⟩ := Sequence.exists_of_forall₂ each below
    exact ⟨twin, order.subset member, same⟩

private theorem exists_original (reordered : node.Reordered other)
    (below : child ∈ other.children) :
    ∃ original ∈ node.children, original.Reordered child := by
  cases reordered with
  | parent _ each order =>
    exact Sequence.exists_of_forall₂ each.flip (order.symm.subset below)

/-- What is true of the predicates of all children is so in any order. -/
theorem forall_children (reordered : node.Reordered other) (holds : Predicate → Prop)
    (each : ∀ child ∈ node.children, holds child.predicate) :
    ∀ child ∈ other.children, holds child.predicate := by
  intro child below
  obtain ⟨original, member, same⟩ := reordered.exists_original below
  rw [same.predicate_eq]
  exact each original member

theorem evaluated (reordered : node.Reordered other)
    (each : ∀ child ∈ node.children, ∃ truth, child.predicate.evaluate record = .ok truth) :
    ∀ child ∈ other.children, ∃ truth, child.predicate.evaluate record = .ok truth :=
  reordered.forall_children (fun predicate => ∃ truth, predicate.evaluate record = .ok truth) each

private theorem countP_of_forall₂ {children others : List Node}
    (each : List.Forall₂ Reordered children others) :
    others.countP (holds record) = children.countP (holds record) := by
  induction each with
  | nil => rfl
  | @cons child twin _ _ same _ ih =>
    have alike : holds record twin = holds record child := by
      unfold holds
      rw [same.predicate_eq]
    rw [List.countP_cons, List.countP_cons, alike, ih]

theorem countP_eq (reordered : node.Reordered other) :
    other.children.countP (holds record) = node.children.countP (holds record) := by
  cases reordered with
  | parent _ each order => rw [← order.countP_eq, countP_of_forall₂ each]

theorem children_eq_nil_iff (reordered : node.Reordered other) :
    other.children = [] ↔ node.children = [] := by
  cases reordered with
  | parent _ each order =>
    have same := each.length_eq.trans order.length_eq
    rw [← List.length_eq_zero_iff, ← List.length_eq_zero_iff, same]

variable {split : Split} {stop : Stop}

private theorem stops (reordered : node.Reordered other)
    (stops : node.Steps split record (.ok (.stop stop))) :
    other.Steps split record (.ok (.stop stop)) := by
  cases stops with
  | leaf childless => exact .leaf (reordered.children_eq_nil_iff.mpr childless)
  | undecided evaluated passed below unknown =>
    obtain ⟨twin, beside, same⟩ := reordered.exists_child below
    rw [← same.predicate_eq] at unknown
    refine .undecided (reordered.evaluated evaluated) ?_ beside unknown
    exact reordered.forall_children (fun predicate => predicate.evaluate record ≠ .ok .yes) passed
  | noneHolds inner failing =>
    refine .noneHolds (mt reordered.children_eq_nil_iff.mp inner) ?_
    exact reordered.forall_children (fun predicate => predicate.evaluate record = .ok .no) failing

private theorem enters (reordered : node.Reordered other)
    (enters : node.Steps .binary record (.ok (.enter child))) :
    ∃ twin, other.Steps .binary record (.ok (.enter twin)) ∧ child.Reordered twin := by
  have below := enters.child_mem
  cases enters with
  | entered evaluated alone _ _ holding =>
    obtain ⟨twin, beside, same⟩ := reordered.exists_child below
    have still : other.children.countP (holds record) ≤ 1 := reordered.countP_eq ▸ alone rfl
    rw [← same.predicate_eq] at holding
    exact ⟨twin, enters_of_alone (reordered.evaluated evaluated) still beside holding, same⟩

private theorem crowded (reordered : node.Reordered other) {label : String} {count : Nat}
    (fails : node.Steps split record (.error (.multipleTrueChildren label count))) :
    other.Steps split record (.error (.multipleTrueChildren label count)) := by
  cases fails with
  | crowded evaluated binary several =>
    rw [← reordered.label_eq, ← reordered.countP_eq] at *
    exact .crowded (reordered.evaluated evaluated) binary several

/-- Where a child fails, one fails in any order, though perhaps another one. -/
theorem fails (reordered : node.Reordered other) {error : EvaluationError}
    (fails : node.Steps split record (.error (.evaluation error))) :
    ∃ first, other.Steps split record (.error (.evaluation first)) := by
  cases fails with
  | @failed _ before child after siblings _ failure =>
    have below : child ∈ node.children := siblings ▸ List.mem_append_cons_self
    obtain ⟨twin, beside, same⟩ := reordered.exists_child below
    rw [← same.predicate_eq] at failure
    exact fails_of_mem beside failure

end Reordered

variable {root other last : Node} {above : List Node}

/-- The walk through the one tree takes the way of the walk through the other one. -/
theorem Leads.of_reordered (leads : Leads .binary record root above last)
    (reordered : root.Reordered other) :
    ∃ beyond final, Leads .binary record other beyond final ∧
      List.Forall₂ Reordered above beyond ∧ last.Reordered final := by
  induction leads generalizing other with
  | here node => exact ⟨[], other, .here other, .nil, reordered⟩
  | @enter node child last above enters _ ih =>
    obtain ⟨twin, again, same⟩ := reordered.enters enters
    obtain ⟨beyond, final, leads, nodes, ends⟩ := ih same
    exact ⟨other :: beyond, final, .enter again leads, .cons reordered nodes, ends⟩

end Node

/-- Walks that visit the same nodes up to the order of children and stop for the same reason. -/
structure Walk.Reordered (walk twin : Walk) : Prop where
  above : List.Forall₂ Node.Reordered walk.above twin.above
  last : walk.last.Reordered twin.last
  stop : twin.stop = walk.stop

private theorem Walk.Reordered.resembles {walk twin : Walk} (reordered : walk.Reordered twin) :
    walk.Resembles twin := by
  refine ⟨?_, reordered.last.resembles, reordered.stop⟩
  unfold path
  rw [List.map_append, List.map_append, Node.Reordered.labels_eq reordered.above,
    List.map_singleton, List.map_singleton, reordered.last.label_eq]

namespace Node

variable {root other : Node}

/-- The walk through a reordered tree has an end if the other one has, and else fails; with the
same error if it is not one of a test. -/
theorem walk_of_reordered (reordered : root.Reordered other) (record : Record) :
    (∃ walk twin, root.walk .binary record = .ok walk ∧ other.walk .binary record = .ok twin ∧
      walk.Reordered twin) ∨
    (∃ label count, root.walk .binary record = .error (.multipleTrueChildren label count) ∧
      other.walk .binary record = .error (.multipleTrueChildren label count)) ∨
    ∃ first second, root.walk .binary record = .error (.evaluation first) ∧
      other.walk .binary record = .error (.evaluation second) := by
  obtain ⟨above, last, leads, ends⟩ := leads_total .binary record root
  obtain ⟨beyond, final, again, nodes, same⟩ := leads.of_reordered reordered
  rcases ends with ⟨stop, stops⟩ | ⟨error, fails⟩
  · exact .inl ⟨_, _, leads.walk_of_stop stops, again.walk_of_stop (same.stops stops),
      nodes, same, rfl⟩
  · cases error with
    | multipleTrueChildren label count =>
      exact .inr (.inl ⟨label, count, leads.walk_of_error fails,
        again.walk_of_error (same.crowded fails)⟩)
    | evaluation first =>
      obtain ⟨second, failed⟩ := same.fails fails
      exact .inr (.inr ⟨first, second, leads.walk_of_error fails, again.walk_of_error failed⟩)

theorem predict_of_reordered (reordered : root.Reordered other) (strategies : Strategies)
    (record : Record) :
    (∃ error, root.predict .binary strategies record = .error error ∧
      other.predict .binary strategies record = .error error) ∨
    (∃ first second, root.predict .binary strategies record = .ok first ∧
      other.predict .binary strategies record = .ok second ∧ first.Agrees second) ∨
    ∃ first second, root.predict .binary strategies record = .error (.evaluation first) ∧
      other.predict .binary strategies record = .error (.evaluation second) := by
  unfold predict
  obtain ⟨walk, twin, walked, again, same⟩ | ⟨label, count, failed, again⟩ |
    ⟨first, second, failed, again⟩ := walk_of_reordered reordered record
  · rw [walked, again]
    obtain agree | agree := (same.resembles.conclude strategies).error_or_ok
    · exact .inl agree
    · exact .inr (.inl agree)
  · rw [failed, again]
    exact .inl ⟨_, rfl, rfl⟩
  · rw [failed, again]
    exact .inr (.inr ⟨first, second, rfl, rfl⟩)

/-- Scoring a tree and a reordered one under a binary split either fails for both, or gives the same
value, confidence and labels. If no test of a child of a visited node fails, the errors are the same
as well. -/
theorem predict_reordered (reordered : root.Reordered other) (strategies : Strategies)
    (record : Record) :
    ((∃ first second, root.predict .binary strategies record = .error first ∧
        other.predict .binary strategies record = .error second) ∨
      ∃ first second, root.predict .binary strategies record = .ok first ∧
        other.predict .binary strategies record = .ok second ∧ first.Agrees second) ∧
    ((∀ above node, Leads .binary record root above node → ∀ child ∈ node.children,
        ∃ truth, child.predicate.evaluate record = .ok truth) →
      ∀ error, root.predict .binary strategies record = .error error ↔
        other.predict .binary strategies record = .error error) := by
  obtain ⟨error, failed, again⟩ | ⟨first, second, scored, again, agree⟩ |
    ⟨first, second, failed, again⟩ := predict_of_reordered reordered strategies record
  · refine ⟨.inl ⟨error, error, failed, again⟩, ?_⟩
    intro _ other
    rw [failed, again]
  · refine ⟨.inr ⟨first, second, scored, again, agree⟩, ?_⟩
    intro _ error
    rw [scored, again]
    simp
  · refine ⟨.inl ⟨_, _, failed, again⟩, ?_⟩
    intro sound
    obtain ⟨above, node, leads, child, below, failure⟩ := exists_child_of_predict_evaluation failed
    obtain ⟨truth, success⟩ := sound above node leads child below
    cases success.symm.trans failure

/-- Under a multiple split the first child that holds is entered, so that the order counts. -/
example :
    (overlapping.predict .multi {} (Table.empty.insert "wind" (.text "storm"))).map
      Prediction.labels = .ok ["go", "wait"] ∧
    (Node.predict { overlapping with children := overlapping.children.reverse } .multi {}
      (Table.empty.insert "wind" (.text "storm"))).map Prediction.labels = .ok ["go", "stay"] := by
  decide

/-- `outing` with the children of both inner nodes the other way round. -/
def outingReversed : Node where
  predicate := .always
  score := some "go"
  children := [
    { predicate := .compare "outlook" .notEqual (some "rain"), score := some "go" },
    { predicate := .compare "outlook" .equal (some "rain")
      score := some "stay"
      children := [
        { predicate := .compare "wind" .notEqual (some "strong"), score := some "go" },
        { predicate := .compare "wind" .equal (some "strong"), score := some "stay" }] }]

private theorem outing_reordered : outing.Reordered outingReversed :=
  .parent outing
    (.cons (.parent _ (.cons (.refl _) (.cons (.refl _) .nil)) (.swap _ _ _))
      (.cons (.refl _) .nil))
    (.swap _ _ _)

theorem predict_reordered_outing :
    outing.Reordered outingReversed ∧
    (∃ first second,
      outing.predict .binary {}
        ((Table.empty.insert "outlook" (.text "rain")).insert "wind" (.text "calm")) = .ok first ∧
      outingReversed.predict .binary {}
        ((Table.empty.insert "outlook" (.text "rain")).insert "wind" (.text "calm")) = .ok second ∧
      first.Agrees second) ∧
    outingReversed.predict .binary {} Table.empty = .error (.notSupported .none) := by
  have silent : ∀ node ∈ outing.nodes, ∀ child ∈ node.children,
      child.predicate.evaluate Table.empty = .ok .unknown := by
    decide
  have refused : outing.predict .binary {} Table.empty = .error (.notSupported .none) := rfl
  refine ⟨outing_reordered, ?_, ?_⟩
  · obtain ⟨first, second, failed, _⟩ | agree := (predict_reordered outing_reordered {}
      ((Table.empty.insert "outlook" (.text "rain")).insert "wind" (.text "calm"))).1
    · cases failed
    · exact agree
  · refine ((predict_reordered outing_reordered {} Table.empty).2 ?_ _).mp refused
    intro above node leads child below
    exact ⟨.unknown, silent node leads.last_mem_nodes child below⟩

end Node
end DecisionTree
