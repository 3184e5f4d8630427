import DecisionTree.Proofs.Tree.Nodes
import DecisionTree.Proofs.Validation.Violations

/-!
The findings about a model: a warning about the root's predicate, and the violations of every node
with its place. Every place begins with the root's, so that no id makes a violation read like a
warning, and a model is usable exactly when no node violates anything.
-/

namespace DecisionTree

variable {split : Split} {place : String} {index : Nat} {root child : Node}

theorem Predicate.isAlways_iff {predicate : Predicate} :
    predicate.isAlways = true ↔ predicate = .always := by
  cases predicate <;> simp [isAlways]

namespace Node

mutual

/-- The nodes of a tree in the order of the document, each with its place. -/
def placed (place : String) : Node → List (String × Node)
  | ⟨id, predicate, score, recordCount, distributions, children⟩ =>
    (place, ⟨id, predicate, score, recordCount, distributions, children⟩) ::
      placedBelow place 0 children

/-- The nodes of several trees, whose roots are children counted from an index. -/
def placedBelow (place : String) (index : Nat) : List Node → List (String × Node)
  | [] => []
  | child :: rest =>
    placed (placeBelow place index child) child ++ placedBelow place (index + 1) rest

end

mutual

theorem placed_map_snd (place : String) :
    ∀ root : Node, (root.placed place).map Prod.snd = root.nodes
  | ⟨_, _, _, _, _, children⟩ => congrArg (_ :: ·) (placedBelow_map_snd place 0 children)

theorem placedBelow_map_snd (place : String) (index : Nat) :
    ∀ children : List Node, (placedBelow place index children).map Prod.snd = nodesOfAll children
  | [] => rfl
  | child :: rest => by
    rw [placedBelow, List.map_append, placed_map_snd, placedBelow_map_snd, nodesOfAll]

end

private theorem prefix_placeBelow : place.toList <+: (placeBelow place index child).toList := by
  unfold placeBelow
  cases child.id with
  | some id | none =>
    simp only [String.toList_append, List.append_assoc]
    exact List.prefix_append _ _

mutual

private theorem prefix_of_mem_placed (place : String) : ∀ root : Node, ∀ entry ∈ root.placed place,
    place.toList <+: entry.1.toList
  | ⟨_, _, _, _, _, children⟩, entry, member => by
    rcases List.mem_cons.mp member with rfl | below
    · exact List.prefix_refl _
    · exact prefix_of_mem_placedBelow place 0 children entry below

theorem prefix_of_mem_placedBelow (place : String) (index : Nat) :
    ∀ children : List Node, ∀ entry ∈ placedBelow place index children,
      place.toList <+: entry.1.toList
  | child :: rest, entry, member => by
    rw [placedBelow] at member
    rcases List.mem_append.mp member with here | later
    · exact prefix_placeBelow.trans (prefix_of_mem_placed _ child entry here)
    · exact prefix_of_mem_placedBelow place (index + 1) rest entry later

end

def findingsAt (split : Split) (entry : String × Node) : List Finding :=
  (entry.2.violations split).map (.violation entry.1)

mutual

theorem findings_eq_flatMap (split : Split) (place : String) : ∀ root : Node,
    root.findings split place = (root.placed place).flatMap (findingsAt split)
  | ⟨_, _, _, _, _, children⟩ => by
    rw [findings, placed, List.flatMap_cons, findingsBelow_eq_flatMap split place 0 children]
    rfl

theorem findingsBelow_eq_flatMap (split : Split) (place : String) (index : Nat) :
    ∀ children : List Node, findingsBelow split place index children =
      (placedBelow place index children).flatMap (findingsAt split)
  | [] => rfl
  | child :: rest => by
    rw [findingsBelow, placedBelow, List.flatMap_append, findings_eq_flatMap,
      findingsBelow_eq_flatMap]

end

variable {finding : Finding}

theorem mem_findings_iff : finding ∈ root.findings split place ↔
    ∃ entry ∈ root.placed place, ∃ violation ∈ entry.2.violations split,
      .violation entry.1 violation = finding := by
  rw [findings_eq_flatMap, List.mem_flatMap]
  simp only [findingsAt, List.mem_map]

theorem findings_eq_nil_iff :
    root.findings split place = [] ↔ ∀ node ∈ root.nodes, node.violations split = [] := by
  rw [findings_eq_flatMap, List.flatMap_eq_nil_iff, ← placed_map_snd place, List.forall_mem_map]
  simp only [findingsAt, List.map_eq_nil_iff]

/-- The findings about nodes are violations, so that warnings alone mean none. -/
theorem findings_all_isWarning_iff : (root.findings split place).all Finding.isWarning = true ↔
    root.findings split place = [] := by
  rw [List.all_eq_true, List.eq_nil_iff_forall_not_mem]
  refine forall_congr' fun finding => imp_congr_right fun reported => ?_
  obtain ⟨_, _, _, _, rfl⟩ := mem_findings_iff.mp reported
  exact iff_false_intro Bool.false_ne_true

end Node

namespace Finding

private theorem prefix_message (place : String) (violation : Violation) :
    place.toList <+: (Finding.violation place violation).message.toList := by
  cases violation with
  | tooManyChildren | negativeCount | negativeDistributionCount | confidenceOutside
  | leafWithoutScore =>
    simp only [message, String.toList_append, List.append_assoc]
    exact List.prefix_append _ _

/-- No violation at a place that begins with the root's reads like a warning. -/
theorem isPrefixOf_message (finding : Finding)
    (rooted : ∀ place violation, finding = .violation place violation →
      "root".toList <+: place.toList) :
    warningMark.toList.isPrefixOf finding.message.toList = finding.isWarning := by
  cases finding with
  | rootPredicate label =>
    rw [isWarning, List.isPrefixOf_iff_prefix]
    simp only [message, String.toList_append, List.append_assoc]
    exact List.prefix_append _ _
  | violation place violation =>
    rw [isWarning, ← Bool.not_eq_true, List.isPrefixOf_iff_prefix]
    intro marked
    have placed := (rooted place violation rfl).trans (prefix_message place violation)
    have overlap := List.prefix_or_prefix_of_prefix marked placed
    revert overlap
    decide

end Finding

namespace Model

variable {model : Model}

theorem isUsable_iff :
    model.isUsable = true ↔ ∀ node ∈ model.root.nodes, node.violations model.split = [] := by
  have warns : (if model.root.predicate.isAlways then [] else
      [Finding.rootPredicate model.root.label]).all Finding.isWarning = true := by
    split <;> rfl
  unfold isUsable findings
  rw [List.all_append, warns, Bool.true_and, Node.findings_all_isWarning_iff,
    Node.findings_eq_nil_iff]

private theorem prefix_of_mem_findings {violation : Violation}
    (reported : .violation place violation ∈ model.findings) :
    "root".toList <+: place.toList := by
  rcases List.mem_append.mp reported with warned | below
  · split at warned
    next => cases warned
    next => cases List.mem_singleton.mp warned
  · obtain ⟨entry, placed, _, _, same⟩ := Node.mem_findings_iff.mp below
    cases same
    exact Node.prefix_of_mem_placed "root" model.root entry placed

/-- Judging the findings by their wording agrees with judging them by what they are. -/
theorem onlyWarnings_messages (model : Model) :
    Finding.onlyWarnings (model.findings.map Finding.message) = model.isUsable := by
  unfold Finding.onlyWarnings isUsable
  rw [List.all_map, Bool.eq_iff_iff, List.all_eq_true, List.all_eq_true]
  refine forall₂_congr fun finding reported => ?_
  rw [Function.comp_apply, Finding.isPrefixOf_message finding fun place violation same =>
    prefix_of_mem_findings (same ▸ reported)]

theorem findings_eq_nil_iff : model.findings = [] ↔ model.root.predicate = .always ∧
    ∀ node ∈ model.root.nodes, node.violations model.split = [] := by
  rw [findings, List.append_eq_nil_iff, Node.findings_eq_nil_iff, ← Predicate.isAlways_iff]
  refine and_congr_left fun _ => ?_
  split <;> simp [*]

/-- The findings are the warning about the root's predicate, then the violations node by node from
the root on, each node's as reported in the order of its checks, and nothing else. So there are none
exactly if the root always holds and no node violates anything; and the wording of all findings is
that of warnings exactly if no node does, whatever the ids and labels are. -/
theorem findings_report (model : Model) :
    (∃ warnings, (model.root.predicate = .always → warnings = []) ∧
        (model.root.predicate ≠ .always → warnings = [.rootPredicate model.root.label]) ∧
        model.findings = warnings ++
          (model.root.placed "root").flatMap (Node.findingsAt model.split)) ∧
      (model.root.placed "root").map Prod.snd = model.root.nodes ∧
      (∀ node reported, Node.Reports model.split node reported ↔
        reported = node.violations model.split) ∧
      (model.findings = [] ↔ model.root.predicate = .always ∧
        ∀ node ∈ model.root.nodes, ∀ violation, ¬node.Violates model.split violation) ∧
      (Finding.onlyWarnings (model.findings.map Finding.message) = true ↔
        ∀ node ∈ model.root.nodes, ∀ violation, ¬node.Violates model.split violation) := by
  have sound (node : Node) : node.violations model.split = [] ↔
      ∀ violation, ¬node.Violates model.split violation := by
    simp only [List.eq_nil_iff_forall_not_mem, Node.mem_violations_iff]
  refine ⟨⟨_, ?_, ?_, congrArg _ (Node.findings_eq_flatMap _ _ _)⟩, Node.placed_map_snd _ _,
    fun _ _ => Node.reports_iff, ?_, ?_⟩
  · intro always
    exact if_pos (Predicate.isAlways_iff.mpr always)
  · intro guarded
    exact if_neg fun always => guarded (Predicate.isAlways_iff.mp always)
  · simp only [findings_eq_nil_iff, sound]
  · simp only [onlyWarnings_messages, isUsable_iff, sound]

end Model
end DecisionTree
