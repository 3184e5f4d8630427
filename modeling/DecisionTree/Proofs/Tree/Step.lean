import DecisionTree.Proofs.Sequence
import DecisionTree.Proofs.Tree.Nodes
import DecisionTree.Tree.Scoring

/-!
One step of the walk through a tree. A step looks at a node and its children only: it fails, stops
there, or enters a child. What it does is told twice, by the tally that the walk keeps and by what
the predicates of the children evaluate to, and the two agree.
-/

namespace DecisionTree

/-- Why the walk stops at an inner node none of whose children holds. -/
def Stop.ofOutcomes (outcomes : List Truth) : Stop :=
  if outcomes.contains .unknown then .undecided else .noneHolds

namespace Node

/-- Whether the predicate of a node holds. -/
def holds (record : Record) (node : Node) : Bool :=
  match node.predicate.evaluate record with
  | .ok .yes => true
  | _ => false

/-- The outcomes of the predicates of nodes, or the first error. -/
def outcomes (record : Record) (children : List Node) : Except EvaluationError (List Truth) :=
  children.mapM fun child => child.predicate.evaluate record

variable {split : Split} {record : Record} {node child : Node} {children : List Node}
  {truths : List Truth}

theorem holds_iff : node.holds record = true ↔ node.predicate.evaluate record = .ok .yes := by
  unfold holds
  split
  next outcome => simp [outcome]
  next differs =>
    constructor
    · exact fun impossible => nomatch impossible
    · exact fun outcome => absurd outcome differs

/-- The outcomes are those of the children, one for each. -/
theorem outcomes_eq_ok_iff :
    outcomes record children = .ok truths ↔
      List.Forall₂ (fun child truth => child.predicate.evaluate record = .ok truth)
        children truths := by
  rw [outcomes, Sequence.mapM_eq_ok_iff, ← List.forall₂_eq_eq_eq,
    List.forall₂_map_left_iff, List.forall₂_map_right_iff]

theorem outcomes_eq_error_iff {error : EvaluationError} :
    outcomes record children = .error error ↔
      ∃ before child after, children = before ++ child :: after ∧
        (∀ sibling ∈ before, ∃ truth, sibling.predicate.evaluate record = .ok truth) ∧
        child.predicate.evaluate record = .error error :=
  Sequence.mapM_eq_error_iff

theorem outcomes_isOk_iff :
    (∃ truths, outcomes record children = .ok truths) ↔
      ∀ child ∈ children, ∃ truth, child.predicate.evaluate record = .ok truth :=
  Sequence.mapM_isOk_iff

/-- What one pass over children adds to a tally is what all their outcomes come to: the first child
that holds, how many of them hold, and whether one is unknown. -/
theorem addAll_eq (tally : Tally) (children : List Node) :
    Tally.addAll record tally children = (outcomes record children).map fun truths =>
      ⟨tally.first.or (children.find? (holds record)), tally.count + truths.count .yes,
        tally.sawUnknown || truths.contains .unknown⟩ := by
  induction children generalizing tally with
  | nil => simp [Tally.addAll, outcomes, Except.map, pure, Except.pure]
  | cons child rest ih =>
    rw [Tally.addAll, outcomes, List.mapM_cons, List.find?_cons]
    cases outcome : child.predicate.evaluate record with
    | error error => rfl
    | ok truth =>
      change Tally.addAll record (tally.add child truth) rest = Except.map _ (do
        let truths ← outcomes record rest
        return truth :: truths)
      rw [ih]
      cases outcomes record rest with
      | error error => rfl
      | ok truths =>
        change Except.ok _ = Except.ok _
        cases truth with
        | yes =>
          simp only [Tally.add, holds, outcome, List.count_cons_self, Option.or_assoc]
          simp [Nat.add_right_comm, ← Nat.add_assoc]
        | no => simp [Tally.add, holds, outcome]
        | unknown => simp [Tally.add, holds, outcome]

/-- The step at a node, by the outcomes of its children. -/
theorem step_eq (node : Node) :
    node.step split record =
      if node.isLeaf then .ok (.stop .leaf)
      else
        match outcomes record node.children with
        | .error error => .error (.evaluation error)
        | .ok truths =>
          if split = .binary ∧ 1 < truths.count .yes then
            .error (.multipleTrueChildren node.label (truths.count .yes))
          else
            match node.children.find? (holds record) with
            | some child => .ok (.enter child)
            | none => .ok (.stop (.ofOutcomes truths)) := by
  rw [step, addAll_eq]
  cases outcomes record node.children with
  | error error => rfl
  | ok truths =>
    simp only [Except.map, Option.none_or, Nat.zero_add, Bool.false_or, and_comm]
    rfl

section

variable (related : List.Forall₂ (fun child truth => child.predicate.evaluate record = .ok truth)
  children truths)
include related

theorem count_outcomes : truths.count .yes = children.countP (holds record) := by
  induction related with
  | nil => rfl
  | @cons child truth _ _ outcome _ ih =>
    have same : holds record child = (truth == .yes) := by
      rw [Bool.eq_iff_iff, holds_iff, outcome]
      simp
    rw [List.count_cons, List.countP_cons, same, ih]

theorem mem_outcomes (truth : Truth) :
    truth ∈ truths ↔ ∃ child ∈ children, child.predicate.evaluate record = .ok truth := by
  induction related with
  | nil => simp
  | cons outcome _ ih => simp [ih, outcome, eq_comm]

end

/-- What the step at a node is, told by what the predicates of its children evaluate to. -/
inductive Steps (split : Split) (record : Record) (node : Node) : Except WalkError Step → Prop
  | leaf (childless : node.children = []) : Steps split record node (.ok (.stop .leaf))
  /-- the children before the first one that fails have outcomes -/
  | failed {before after : List Node} {child : Node} {error : EvaluationError}
      (siblings : node.children = before ++ child :: after)
      (earlier : ∀ sibling ∈ before, ∃ truth, sibling.predicate.evaluate record = .ok truth)
      (failure : child.predicate.evaluate record = .error error) :
      Steps split record node (.error (.evaluation error))
  | crowded
      (evaluated : ∀ child ∈ node.children, ∃ truth, child.predicate.evaluate record = .ok truth)
      (binary : split = .binary) (several : 2 ≤ node.children.countP (holds record)) :
      Steps split record node
        (.error (.multipleTrueChildren node.label (node.children.countP (holds record))))
  /-- the children before the first one that holds do not hold -/
  | entered {before after : List Node} {child : Node}
      (evaluated : ∀ child ∈ node.children, ∃ truth, child.predicate.evaluate record = .ok truth)
      (alone : split = .binary → node.children.countP (holds record) ≤ 1)
      (siblings : node.children = before ++ child :: after)
      (passed : ∀ sibling ∈ before, sibling.predicate.evaluate record ≠ .ok .yes)
      (holding : child.predicate.evaluate record = .ok .yes) :
      Steps split record node (.ok (.enter child))
  | undecided {child : Node}
      (evaluated : ∀ child ∈ node.children, ∃ truth, child.predicate.evaluate record = .ok truth)
      (passed : ∀ child ∈ node.children, child.predicate.evaluate record ≠ .ok .yes)
      (below : child ∈ node.children) (unknown : child.predicate.evaluate record = .ok .unknown) :
      Steps split record node (.ok (.stop .undecided))
  | noneHolds (inner : node.children ≠ [])
      (failing : ∀ child ∈ node.children, child.predicate.evaluate record = .ok .no) :
      Steps split record node (.ok (.stop .noneHolds))

private theorem steps_of_find? (evaluated : outcomes record node.children = .ok truths)
    (alone : split = .binary → node.children.countP (holds record) ≤ 1)
    (first : node.children.find? (holds record) = some child) :
    node.Steps split record (.ok (.enter child)) := by
  obtain ⟨holding, before, after, siblings, passed⟩ := List.find?_eq_some_iff_append.mp first
  have each := outcomes_isOk_iff.mp ⟨truths, evaluated⟩
  refine .entered each alone siblings ?_ (holds_iff.mp holding)
  intro sibling member earlier
  have skipped := passed sibling member
  rw [holds_iff.mpr earlier] at skipped
  cases skipped

private theorem steps_of_outcomes (inner : node.children ≠ [])
    (evaluated : outcomes record node.children = .ok truths)
    (nowhere : node.children.find? (holds record) = none) :
    node.Steps split record (.ok (.stop (.ofOutcomes truths))) := by
  have each := outcomes_isOk_iff.mp ⟨truths, evaluated⟩
  have vacant_iff := mem_outcomes (outcomes_eq_ok_iff.mp evaluated) .unknown
  have passed : ∀ child ∈ node.children, child.predicate.evaluate record ≠ .ok .yes :=
    fun child below holding => List.find?_eq_none.mp nowhere child below (holds_iff.mpr holding)
  by_cases vacant : .unknown ∈ truths
  · obtain ⟨child, below, unknown⟩ := vacant_iff.mp vacant
    simp only [Stop.ofOutcomes, List.contains_iff_mem, vacant, if_true]
    exact .undecided each passed below unknown
  · simp only [Stop.ofOutcomes, List.contains_iff_mem, vacant, if_false]
    refine .noneHolds inner fun child below => ?_
    obtain ⟨truth, value⟩ := each child below
    cases truth with
    | no => exact value
    | yes => exact absurd value (passed child below)
    | unknown => exact absurd (vacant_iff.mpr ⟨child, below, value⟩) vacant

theorem step_sound (node : Node) : node.Steps split record (node.step split record) := by
  rw [step_eq]
  by_cases childless : node.isLeaf
  · rw [if_pos childless]
    exact .leaf (List.isEmpty_iff.mp childless)
  rw [if_neg childless]
  have inner : node.children ≠ [] := fun empty => childless (List.isEmpty_iff.mpr empty)
  cases evaluated : outcomes record node.children with
  | error error =>
    obtain ⟨before, child, after, siblings, earlier, failure⟩ := outcomes_eq_error_iff.mp evaluated
    exact .failed siblings earlier failure
  | ok truths =>
    simp only [count_outcomes (outcomes_eq_ok_iff.mp evaluated)]
    split
    next crowd => exact .crowded (outcomes_isOk_iff.mp ⟨truths, evaluated⟩) crowd.1 crowd.2
    next calm =>
      have alone : split = .binary → node.children.countP (holds record) ≤ 1 := fun binary =>
        Nat.not_lt.mp fun several => calm ⟨binary, several⟩
      cases first : node.children.find? (holds record) with
      | some child => exact steps_of_find? evaluated alone first
      | none => exact steps_of_outcomes inner evaluated first

theorem isLeaf_eq_false (below : child ∈ node.children) : node.isLeaf = false := by
  unfold isLeaf
  rw [List.isEmpty_eq_false_iff]
  exact List.ne_nil_of_mem below

/-- The step at an inner node all of whose children have outcomes. -/
theorem step_of_evaluated (below : child ∈ node.children)
    (evaluated : outcomes record node.children = .ok truths) :
    node.step split record =
      if split = .binary ∧ 1 < node.children.countP (holds record) then
        .error (.multipleTrueChildren node.label (node.children.countP (holds record)))
      else
        match node.children.find? (holds record) with
        | some child => .ok (.enter child)
        | none => .ok (.stop (.ofOutcomes truths)) := by
  rw [step_eq, isLeaf_eq_false below, evaluated, ← count_outcomes (outcomes_eq_ok_iff.mp evaluated)]
  rfl

private theorem find?_eq_none_of_passed
    (passed : ∀ child ∈ children, child.predicate.evaluate record ≠ .ok .yes) :
    children.find? (holds record) = none :=
  List.find?_eq_none.mpr fun child below holding => passed child below (holds_iff.mp holding)

private theorem find?_eq_some_of_passed {before after : List Node}
    (siblings : children = before ++ child :: after)
    (passed : ∀ sibling ∈ before, sibling.predicate.evaluate record ≠ .ok .yes)
    (holding : child.predicate.evaluate record = .ok .yes) :
    children.find? (holds record) = some child := by
  rw [siblings, List.find?_append, find?_eq_none_of_passed passed, List.find?_cons,
    holds_iff.mpr holding]
  rfl

private theorem countP_eq_zero_of_passed
    (passed : ∀ child ∈ children, child.predicate.evaluate record ≠ .ok .yes) :
    children.countP (holds record) = 0 :=
  List.countP_eq_zero.mpr fun child below holding => passed child below (holds_iff.mp holding)

private theorem step_of_passed (below : child ∈ node.children)
    (evaluated : outcomes record node.children = .ok truths)
    (passed : ∀ child ∈ node.children, child.predicate.evaluate record ≠ .ok .yes) :
    node.step split record = .ok (.stop (.ofOutcomes truths)) := by
  rw [step_of_evaluated below evaluated, find?_eq_none_of_passed passed,
    countP_eq_zero_of_passed passed]
  simp

theorem step_complete {result : Except WalkError Step} (steps : node.Steps split record result) :
    node.step split record = result := by
  cases steps with
  | leaf childless => simp only [step, isLeaf, childless, List.isEmpty_nil, if_true]
  | @failed before after child error siblings earlier failure =>
    have below : child ∈ node.children := by simp [siblings]
    have fails := outcomes_eq_error_iff.mpr ⟨before, child, after, siblings, earlier, failure⟩
    rw [step_eq, isLeaf_eq_false below, fails]
    rfl
  | crowded evaluated binary several =>
    obtain ⟨truths, all⟩ := outcomes_isOk_iff.mpr evaluated
    obtain ⟨child, below, _⟩ := List.countP_pos_iff.mp (Nat.lt_of_lt_of_le Nat.zero_lt_two several)
    rw [step_of_evaluated below all, if_pos ⟨binary, several⟩]
  | @entered before after child evaluated alone siblings passed holding =>
    obtain ⟨truths, all⟩ := outcomes_isOk_iff.mpr evaluated
    have below : child ∈ node.children := by simp [siblings]
    have calm : ¬(split = .binary ∧ 1 < node.children.countP (holds record)) := fun crowd =>
      Nat.not_lt.mpr (alone crowd.1) crowd.2
    rw [step_of_evaluated below all, if_neg calm,
      find?_eq_some_of_passed siblings passed holding]
  | @undecided child evaluated passed below unknown =>
    obtain ⟨truths, all⟩ := outcomes_isOk_iff.mpr evaluated
    have vacant : .unknown ∈ truths :=
      (mem_outcomes (outcomes_eq_ok_iff.mp all) .unknown).mpr ⟨child, below, unknown⟩
    rw [step_of_passed below all passed, Stop.ofOutcomes, List.contains_iff_mem.mpr vacant]
    rfl
  | noneHolds inner failing =>
    obtain ⟨truths, all⟩ := outcomes_isOk_iff.mpr fun child below => ⟨.no, failing child below⟩
    obtain ⟨child, below⟩ := List.exists_mem_of_ne_nil _ inner
    have passed : ∀ child ∈ node.children, child.predicate.evaluate record ≠ .ok .yes := by
      intro child below holding
      rw [failing child below] at holding
      cases holding
    have decided : .unknown ∉ truths := by
      intro vacant
      have vacant_iff := mem_outcomes (outcomes_eq_ok_iff.mp all) .unknown
      obtain ⟨child, below, unknown⟩ := vacant_iff.mp vacant
      rw [failing child below] at unknown
      cases unknown
    rw [step_of_passed below all passed, Stop.ofOutcomes, List.contains_eq_mem,
      decide_eq_false decided]
    rfl

theorem step_eq_iff {result : Except WalkError Step} :
    node.step split record = result ↔ node.Steps split record result := by
  constructor
  · rintro rfl
    exact step_sound node
  · exact step_complete

/-- A step that does not fail has the outcomes of all children. -/
theorem Steps.evaluated {result : Step} (steps : node.Steps split record (.ok result)) :
    ∀ child ∈ node.children, ∃ truth, child.predicate.evaluate record = .ok truth := by
  cases steps with
  | leaf childless => simp [childless]
  | entered evaluated | undecided evaluated => exact evaluated
  | noneHolds _ failing => exact fun child below => ⟨.no, failing child below⟩

/-- A child that is entered is the first one that holds. -/
theorem Steps.find?_eq (enters : node.Steps split record (.ok (.enter child))) :
    node.children.find? (holds record) = some child := by
  cases enters with
  | entered _ _ siblings passed holding => exact find?_eq_some_of_passed siblings passed holding

theorem Steps.unique {first second : Except WalkError Step}
    (one : node.Steps split record first) (other : node.Steps split record second) :
    first = second :=
  (step_eq_iff.mpr one).symm.trans (step_eq_iff.mpr other)

end Node
end DecisionTree
