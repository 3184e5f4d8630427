import DecisionTree.Proofs.Tree.Step
import Mathlib.Data.List.Chain

namespace DecisionTree

def Walk.beneath (walk : Walk) (above : List Node) : Walk :=
  { walk with above := above ++ walk.above }

def Walk.below (walk : Walk) (node : Node) : Walk :=
  { walk with above := node :: walk.above }

namespace Node

variable {split : Split} {record : Record} {strategies : Strategies} {root node child last : Node}
  {above : List Node}

/-- The nodes that a walk has left do not matter to where it goes on. -/
theorem walkFrom_eq (above : List Node) (node : Node) :
    node.walkFrom split record above = (node.walk split record).map (·.beneath above) := by
  induction node using Node.induction generalizing above with
  | parent node ih =>
    rw [walk, walkFrom, walkFrom]
    split
    next => rfl
    next child entered =>
      have below := child_mem_of_step entered
      rw [ih child below, ih child below]
      cases child.walk split record with
      | error error => rfl
      | ok walk => simp [Except.map, Walk.beneath]
    next => simp [Except.map, Walk.beneath]

/-- The walk from a node is the step at the node and the walk from the child it enters. -/
theorem walk_eq_step (node : Node) :
    node.walk split record =
      match node.step split record with
      | .error error => .error error
      | .ok (.stop stop) => .ok ⟨[], node, stop⟩
      | .ok (.enter child) => (child.walk split record).map (·.below node) := by
  rw [walk, walkFrom]
  split
  next failed => rw [failed]
  next child entered =>
    rw [entered]
    exact walkFrom_eq [node] child
  next stopped => rw [stopped]

theorem walk_of_enter (enters : node.Steps split record (.ok (.enter child))) :
    node.walk split record = (child.walk split record).map (·.below node) := by
  rw [walk_eq_step, step_eq_iff.mpr enters]

/-- Step by step the walk gets from the first node to the last; `above` are those it has left. -/
inductive Leads (split : Split) (record : Record) : Node → List Node → Node → Prop
  | here (node : Node) : Leads split record node [] node
  | enter {node child last : Node} {above : List Node}
      (enters : node.Steps split record (.ok (.enter child)))
      (rest : Leads split record child above last) :
      Leads split record node (node :: above) last

theorem Leads.walk_of_stop {stop : Stop} (leads : Leads split record root above last)
    (stops : last.Steps split record (.ok (.stop stop))) :
    root.walk split record = .ok ⟨above, last, stop⟩ := by
  induction leads with
  | here node => rw [walk_eq_step, step_eq_iff.mpr stops]
  | enter enters _ ih =>
    rw [walk_of_enter enters, ih stops]
    rfl

theorem Leads.walk_of_error {error : WalkError} (leads : Leads split record root above last)
    (fails : last.Steps split record (.error error)) : root.walk split record = .error error := by
  induction leads with
  | here node => rw [walk_eq_step, step_eq_iff.mpr fails]
  | enter enters _ ih =>
    rw [walk_of_enter enters, ih fails]
    rfl

theorem Steps.child_mem (enters : node.Steps split record (.ok (.enter child))) :
    child ∈ node.children :=
  child_mem_of_step (step_eq_iff.mpr enters)

/-- Every walk gets somewhere: to a node whose step stops, or to one whose step fails. -/
theorem leads_total (split : Split) (record : Record) (root : Node) :
    ∃ above last, Leads split record root above last ∧
      ((∃ stop, last.Steps split record (.ok (.stop stop))) ∨
        ∃ error, last.Steps split record (.error error)) := by
  induction root using Node.induction with
  | parent node ih =>
    match outcome : node.step split record with
    | .error error => exact ⟨[], node, .here node, .inr ⟨error, step_eq_iff.mp outcome⟩⟩
    | .ok (.stop stop) => exact ⟨[], node, .here node, .inl ⟨stop, step_eq_iff.mp outcome⟩⟩
    | .ok (.enter child) =>
      have enters := step_eq_iff.mp outcome
      obtain ⟨above, last, leads, ends⟩ := ih child enters.child_mem
      exact ⟨node :: above, last, .enter enters leads, ends⟩

theorem walk_eq_ok_iff {walk : Walk} :
    root.walk split record = .ok walk ↔ Leads split record root walk.above walk.last ∧
      walk.last.Steps split record (.ok (.stop walk.stop)) := by
  constructor
  · intro success
    obtain ⟨above, last, leads, ⟨stop, stops⟩ | ⟨error, fails⟩⟩ :=
      leads_total split record root
    · rw [leads.walk_of_stop stops] at success
      cases success
      exact ⟨leads, stops⟩
    · rw [leads.walk_of_error fails] at success
      cases success
  · rintro ⟨leads, stops⟩
    exact leads.walk_of_stop stops

theorem walk_eq_error_iff {error : WalkError} :
    root.walk split record = .error error ↔
      ∃ above last, Leads split record root above last ∧
        last.Steps split record (.error error) := by
  constructor
  · intro failure
    obtain ⟨above, last, leads, ⟨stop, stops⟩ | ⟨first, fails⟩⟩ :=
      leads_total split record root
    · rw [leads.walk_of_stop stops] at failure
      cases failure
    · rw [leads.walk_of_error fails] at failure
      cases failure
      exact ⟨above, last, leads, fails⟩
  · rintro ⟨above, last, leads, fails⟩
    exact leads.walk_of_error fails

/-- A walk that has an end fails nowhere on its way. -/
theorem Leads.step_isOk {walk : Walk} (leads : Leads split record root above last)
    (walked : root.walk split record = .ok walk) :
    ∃ step, last.Steps split record (.ok step) := by
  cases outcome : last.step split record with
  | ok step => exact ⟨step, step_eq_iff.mp outcome⟩
  | error error =>
    rw [leads.walk_of_error (step_eq_iff.mp outcome)] at walked
    cases walked

namespace Leads

theorem last_mem_nodes (leads : Leads split record root above last) : last ∈ root.nodes := by
  induction leads with
  | here node => exact self_mem_nodes node
  | enter enters _ ih => exact nodes_subset_nodes enters.child_mem ih

/-- A walk that goes on to the end passes everywhere a walk from the same node does. -/
theorem prefix_of_stop {beyond : List Node} {final : Node} {stop : Stop}
    (leads : Leads split record root above last) (further : Leads split record root beyond final)
    (ends : final.Steps split record (.ok (.stop stop))) :
    above ++ [last] <+: beyond ++ [final] := by
  induction leads generalizing beyond with
  | here node => cases further <;> simp
  | @enter node child _ _ enters _ ih =>
    cases further with
    | here => cases enters.unique ends
    | enter other later =>
      cases enters.unique other
      simpa using ih later

theorem head?_path (leads : Leads split record root above last) :
    (above ++ [last]).head? = some root := by
  cases leads <;> rfl

/-- Every node on the way but the first was entered from the one before it. -/
theorem isChain_path (leads : Leads split record root above last) :
    List.IsChain (fun node child => node.Steps split record (.ok (.enter child)))
      (above ++ [last]) := by
  induction leads with
  | here node => exact .singleton node
  | @enter node child last above enters rest ih =>
    cases rest with
    | here => exact .cons_cons enters ih
    | enter => exact .cons_cons enters ih

/-- The way down uses up the depth. -/
theorem length_add_depth_le (leads : Leads split record root above last) :
    above.length + last.depth ≤ root.depth := by
  induction leads with
  | here node => simp
  | enter enters _ ih =>
    have lower := depth_lt_depth enters.child_mem
    rw [List.length_cons]
    omega

end Leads

theorem predict_eq_ok_iff {prediction : Prediction} :
    root.predict split strategies record = .ok prediction ↔
      ∃ walk, root.walk split record = .ok walk ∧ walk.conclude strategies = .ok prediction := by
  unfold predict
  cases root.walk split record <;> simp

theorem predict_eq_error_iff {error : ScoreError} :
    root.predict split strategies record = .error error ↔
      (∃ cause, root.walk split record = .error cause ∧ cause.toScoreError = error) ∨
        ∃ walk, root.walk split record = .ok walk ∧ walk.conclude strategies = .error error := by
  unfold predict
  cases root.walk split record <;> simp

end Node

theorem Walk.getLast?_path (walk : Walk) : walk.path.getLast? = some walk.last :=
  List.getLast?_concat

theorem Walk.path_of_conclude {walk : Walk} {strategies : Strategies} {prediction : Prediction}
    (concluded : walk.conclude strategies = .ok prediction) : prediction.path = walk.path := by
  unfold conclude at concluded
  split at concluded
  next => cases concluded; rfl
  next => split at concluded <;> cases concluded <;> rfl
  next => split at concluded <;> cases concluded <;> rfl

end DecisionTree
