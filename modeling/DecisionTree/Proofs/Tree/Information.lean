import DecisionTree.Proofs.Predicate.Extension
import DecisionTree.Proofs.Tree.Walk

/-!
More information only refines a prediction. Under a binary split the child entered is the only one
that holds, and it is still the only one when more fields are known; so a walk that knows more
passes through the same nodes and at most goes on further.
-/

namespace DecisionTree

namespace Node

variable {small large : Record} {split : Split} {root node child last : Node} {above : List Node}

/-- No presence test and no surrogate in the predicates below the node. -/
def IsSteady (root : Node) : Prop :=
  ∀ node ∈ root.descendants, ∀ part ∈ node.predicate.parts, part.isSteady

theorem IsSteady.of_child (steady : node.IsSteady) (below : child ∈ node.children) :
    child.IsSteady := fun other member =>
  steady other (descendants_subset_descendants below member)

/-- A child decided on the smaller record is decided the same way on the larger one. -/
theorem IsSteady.evaluate_eq (steady : node.IsSteady) (more : large.Extends small)
    (below : child ∈ node.children) {truth other : Truth} (decided : truth ≠ .unknown)
    (before : child.predicate.evaluate small = .ok truth)
    (after : child.predicate.evaluate large = .ok other) :
    child.predicate.evaluate large = .ok truth := by
  have refined := Predicate.evaluate_refines more (steady child (child_mem_descendants below))
    before after
  rw [after, refined.eq_of_decided decided]

/-- Under a binary split no child but the one entered holds. -/
theorem eq_of_holds {record : Record} {sibling : Node}
    (alone : node.children.countP (holds record) ≤ 1)
    (below : child ∈ node.children) (holding : child.predicate.evaluate record = .ok .yes)
    (beside : sibling ∈ node.children) (other : sibling.predicate.evaluate record = .ok .yes) :
    child = sibling := by
  rw [List.countP_eq_length_filter] at alone
  have first : child ∈ node.children.filter (holds record) :=
    List.mem_filter.mpr ⟨below, holds_iff.mpr holding⟩
  have second : sibling ∈ node.children.filter (holds record) :=
    List.mem_filter.mpr ⟨beside, holds_iff.mpr other⟩
  match node.children.filter (holds record), alone, first, second with
  | [_], _, first, second => rw [List.mem_singleton.mp first, List.mem_singleton.mp second]

private theorem enters_of_extends (steady : node.IsSteady) (more : large.Extends small)
    {step : Step}
    (enters : node.Steps .binary small (.ok (.enter child)))
    (succeeds : node.Steps .binary large (.ok step)) :
    node.Steps .binary large (.ok (.enter child)) := by
  have below := enters.child_mem
  cases enters with
  | entered _ _ _ _ holding =>
    obtain ⟨truth, value⟩ := succeeds.evaluated child below
    have still := steady.evaluate_eq more below (by decide) holding value
    cases succeeds with
    | leaf childless => simp [childless] at below
    | undecided _ passed => exact absurd still (passed child below)
    | noneHolds _ failing => cases still.symm.trans (failing child below)
    | @entered before after other evaluated alone siblings passed second =>
      -- `child` holds like the one entered now, and only one of them may
      have beside : other ∈ node.children := by simp [siblings]
      cases eq_of_holds (alone rfl) below still beside second
      exact .entered evaluated alone siblings passed second

/-- Where nothing is open on the smaller record, the walk stops on the larger one as well. -/
theorem stops_of_extends (steady : node.IsSteady) (more : large.Extends small) {step : Step}
    {stop : Stop}
    (closed : node.isLeaf ∨ ∀ child ∈ node.children, child.predicate.evaluate small = .ok .no)
    (stops : node.Steps split small (.ok (.stop stop)))
    (succeeds : node.Steps split large (.ok step)) :
    node.Steps split large (.ok (.stop stop)) := by
  cases stops with
  | leaf childless => exact .leaf childless
  | undecided _ _ below unknown =>
    rcases closed with childless | failing
    · simp [List.isEmpty_iff.mp childless] at below
    · cases unknown.symm.trans (failing _ below)
  | noneHolds inner failing =>
    refine .noneHolds inner fun child below => ?_
    obtain ⟨truth, value⟩ := succeeds.evaluated child below
    exact steady.evaluate_eq more below (by decide) (failing child below) value

private theorem IsSteady.of_leads {record : Record} (steady : root.IsSteady)
    (leads : Leads split record root above last) : last.IsSteady := by
  induction leads with
  | here => exact steady
  | enter enters _ ih => exact ih (steady.of_child enters.child_mem)

/-- The walk on the larger record passes through the nodes of the walk on the smaller one. -/
theorem Leads.of_extends {beyond : List Node} {final : Node} {stop : Stop}
    (steady : root.IsSteady) (more : large.Extends small)
    (leads : Leads .binary small root above last)
    (further : Leads .binary large root beyond final)
    (ends : final.Steps .binary large (.ok (.stop stop))) :
    Leads .binary large root above last := by
  induction leads generalizing beyond with
  | here node => exact .here node
  | @enter node child last above enters _ ih =>
    -- the other walk does not stop here, since the node it would stop at enters `child`
    cases further with
    | here => cases (enters_of_extends steady more enters ends).unique ends
    | enter other later =>
      have again := enters_of_extends steady more enters other
      cases again.unique other
      exact .enter again (ih (steady.of_child enters.child_mem) later)

/-- A prediction from less information is refined by one from more: its path is the beginning of
the other one, and all of it where the walk left nothing open. -/
theorem predict_refines {strategies others : Strategies} {before after : Prediction}
    (steady : ∀ node ∈ root.descendants, ∀ part ∈ node.predicate.parts, part.isSteady)
    (more : large.Extends small)
    (first : root.predict .binary strategies small = .ok before)
    (second : root.predict .binary others large = .ok after) :
    before.path <+: after.path ∧
      ∀ last, before.path.getLast? = some last →
        (last.isLeaf ∨ ∀ child ∈ last.children, child.predicate.evaluate small = .ok .no) →
        after.path = before.path ∧
          (strategies = others →
            after.value = before.value ∧ after.confidence = before.confidence) := by
  obtain ⟨short, walked, concluded⟩ := predict_eq_ok_iff.mp first
  obtain ⟨long, farther, decided⟩ := predict_eq_ok_iff.mp second
  obtain ⟨leads, stops⟩ := walk_eq_ok_iff.mp walked
  obtain ⟨further, ends⟩ := walk_eq_ok_iff.mp farther
  have again := leads.of_extends steady more further ends
  rw [Walk.path_of_conclude concluded, Walk.path_of_conclude decided]
  refine ⟨again.prefix_of_stop further ends, fun last same closed => ?_⟩
  have here : short.last = last := by simpa [Walk.path] using same
  subst here
  -- the larger record walks to the same node and finds nothing to enter there
  obtain ⟨step, succeeds⟩ := again.step_isOk farther
  have stuck := stops_of_extends (IsSteady.of_leads steady leads) more closed stops succeeds
  have equal : long = short := Except.ok.inj (farther.symm.trans (again.walk_of_stop stuck))
  subst equal
  refine ⟨rfl, fun agree => ?_⟩
  subst agree
  cases Except.ok.inj (decided.symm.trans concluded)
  exact ⟨rfl, rfl⟩

theorem predict_refines_outing :
    (∃ before after,
      outing.predict .binary ⟨.lastPrediction, .returnNullPrediction⟩
        (Table.empty.insert "outlook" (.text "rain")) = .ok before ∧
      outing.predict .binary {}
        ((Table.empty.insert "outlook" (.text "rain")).insert "wind" (.text "strong")) = .ok after ∧
      before.path <+: after.path ∧ before.labels = ["go", "stay"] ∧
      after.labels = ["go", "stay", "stay"]) ∧
    ∃ before after,
      outing.predict .binary {} (Table.empty.insert "outlook" (.text "sun")) = .ok before ∧
      outing.predict .binary {}
        ((Table.empty.insert "outlook" (.text "sun")).insert "wind" (.text "strong")) = .ok after ∧
      before.endsAtLeaf ∧ after.path = before.path ∧ after.value = before.value ∧
      after.confidence = before.confidence := by
  have steady : ∀ node ∈ outing.descendants, ∀ part ∈ node.predicate.parts, part.isSteady := by
    decide
  have more (outlook : String) : Record.Extends
      ((Table.empty.insert "outlook" (.text outlook)).insert "wind" (.text "strong"))
      (Table.empty.insert "outlook" (.text outlook)) :=
    Record.extends_insert rfl (.text "strong")
  have undecided : outing.predict .binary ⟨.lastPrediction, .returnNullPrediction⟩
      (Table.empty.insert "outlook" (.text "rain")) = .ok _ := rfl
  have onward : outing.predict .binary {}
      ((Table.empty.insert "outlook" (.text "rain")).insert "wind" (.text "strong")) = .ok _ := rfl
  have atLeaf : outing.predict .binary {}
      (Table.empty.insert "outlook" (.text "sun")) = .ok _ := rfl
  have again : outing.predict .binary {}
      ((Table.empty.insert "outlook" (.text "sun")).insert "wind" (.text "strong")) = .ok _ := rfl
  constructor
  · have onTheWay := (predict_refines steady (more "rain") undecided onward).1
    exact ⟨_, _, undecided, onward, onTheWay, by decide, by decide⟩
  · obtain ⟨-, ends⟩ := predict_refines steady (more "sun") atLeaf again
    obtain ⟨path, agree⟩ := ends _ rfl (.inl rfl)
    obtain ⟨value, confidence⟩ := agree rfl
    exact ⟨_, _, atLeaf, again, by decide, path, value, confidence⟩

end Node
end DecisionTree
