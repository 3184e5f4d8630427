import DecisionTree.Proofs.Tree.Decided

/-!
A binary split is a check on top of a multiple one. A node is ambiguous if all of its children have
outcomes and several of them hold. The two walks take the same steps up to the first ambiguous node,
where the one under a binary split fails; an error of a predicate comes before it under both.
-/

namespace DecisionTree.Node

variable {record : Record} {strategies : Strategies} {root node child last : Node}
  {above : List Node} {label : String} {count : Nat}

/-- Every child has an outcome, and at least two of them hold. -/
def Ambiguous (record : Record) (node : Node) : Prop :=
  (∀ child ∈ node.children, ∃ truth, child.predicate.evaluate record = .ok truth) ∧
    2 ≤ node.children.countP (holds record)

theorem crowded_iff :
    node.Steps .binary record (.error (.multipleTrueChildren label count)) ↔
      node.Ambiguous record ∧ label = node.label ∧ count = node.children.countP (holds record) := by
  constructor
  · intro fails
    cases fails with
    | crowded evaluated _ several => exact ⟨⟨evaluated, several⟩, rfl, rfl⟩
  · rintro ⟨⟨evaluated, several⟩, rfl, rfl⟩
    exact .crowded evaluated rfl several

theorem steps_multi_of_binary {result : Except WalkError Step}
    (calm : ∀ label count, result ≠ .error (.multipleTrueChildren label count))
    (steps : node.Steps .binary record result) : node.Steps .multi record result := by
  cases steps with
  | leaf childless => exact .leaf childless
  | failed siblings earlier failure => exact .failed siblings earlier failure
  | crowded => exact absurd rfl (calm _ _)
  | entered evaluated _ siblings passed holding =>
    exact .entered evaluated (fun impossible => nomatch impossible) siblings passed holding
  | undecided evaluated passed below unknown => exact .undecided evaluated passed below unknown
  | noneHolds inner failing => exact .noneHolds inner failing

private theorem steps_binary_of_multi {result : Except WalkError Step}
    (calm : ¬node.Ambiguous record)
    (steps : node.Steps .multi record result) : node.Steps .binary record result := by
  cases steps with
  | leaf childless => exact .leaf childless
  | failed siblings earlier failure => exact .failed siblings earlier failure
  | crowded _ binary _ => cases binary
  | entered evaluated _ siblings passed holding =>
    have alone : node.children.countP (holds record) ≤ 1 := by
      by_contra several
      exact calm ⟨evaluated, by omega⟩
    exact .entered evaluated (fun _ => alone) siblings passed holding
  | undecided evaluated passed below unknown => exact .undecided evaluated passed below unknown
  | noneHolds inner failing => exact .noneHolds inner failing

private theorem not_ambiguous_of_enter (enters : node.Steps .binary record (.ok (.enter child))) :
    ¬node.Ambiguous record := by
  intro ambiguous
  cases enters.unique (crowded_iff.mpr ⟨ambiguous, rfl, rfl⟩)

namespace Leads

theorem multi_of_binary (leads : Leads .binary record root above last) :
    Leads .multi record root above last := by
  induction leads with
  | here node => exact .here node
  | enter enters _ ih => exact .enter (steps_multi_of_binary (by simp) enters) ih

private theorem binary_of_multi (leads : Leads .multi record root above last)
    (calm : ∀ node ∈ above, ¬node.Ambiguous record) : Leads .binary record root above last := by
  induction leads with
  | here node => exact .here node
  | enter enters _ ih =>
    obtain ⟨first, later⟩ := List.forall_mem_cons.mp calm
    exact .enter (steps_binary_of_multi first enters) (ih later)

private theorem not_ambiguous (leads : Leads .binary record root above last) :
    ∀ node ∈ above, ¬node.Ambiguous record := by
  induction leads with
  | here => simp
  | enter enters _ ih => exact List.forall_mem_cons.mpr ⟨not_ambiguous_of_enter enters, ih⟩

/-- Of the ambiguous nodes on a way down there is a first one. -/
theorem exists_first (leads : Leads .multi record root above last)
    (ambiguous : last.Ambiguous record) :
    ∃ before first, Leads .multi record root before first ∧ first.Ambiguous record ∧
      ∀ node ∈ before, ¬node.Ambiguous record := by
  induction leads with
  | here node => exact ⟨[], node, .here node, ambiguous, by simp⟩
  | @enter node _ _ _ enters _ ih =>
    by_cases here : node.Ambiguous record
    · exact ⟨[], node, .here node, here, by simp⟩
    · obtain ⟨before, first, leads, ambiguous, calm⟩ := ih ambiguous
      exact ⟨node :: before, first, .enter enters leads, ambiguous,
        List.forall_mem_cons.mpr ⟨here, calm⟩⟩

end Leads

theorem walk_multi_eq_binary
    (calm : ∀ label count, root.walk .binary record ≠ .error (.multipleTrueChildren label count)) :
    root.walk .multi record = root.walk .binary record := by
  obtain ⟨above, last, leads, ⟨stop, stops⟩ | ⟨error, fails⟩⟩ := leads_total .binary record root
  · rw [leads.walk_of_stop stops]
    exact leads.multi_of_binary.walk_of_stop (steps_multi_of_binary (by simp) stops)
  · have walked := leads.walk_of_error fails
    rw [walked] at calm ⊢
    have calmStep : ∀ label count,
        Except.error error ≠ (.error (.multipleTrueChildren label count) : Except WalkError Step) :=
      fun label count same => calm label count (congrArg Except.error (Except.error.inj same))
    exact leads.multi_of_binary.walk_of_error (steps_multi_of_binary calmStep fails)

theorem predict_eq_multipleTrueChildren_iff {split : Split} :
    root.predict split strategies record = .error (.multipleTrueChildren label count) ↔
      root.walk split record = .error (.multipleTrueChildren label count) :=
  predict_eq_toScoreError_iff (.multipleTrueChildren label count)

/-- The error of a binary split is the first ambiguous node on the walk under a multiple one. -/
theorem walk_binary_eq_multipleTrueChildren_iff :
    root.walk .binary record = .error (.multipleTrueChildren label count) ↔
      ∃ above last, Leads .multi record root above last ∧ last.Ambiguous record ∧
        (∀ node ∈ above, ¬node.Ambiguous record) ∧
        label = last.label ∧ count = last.children.countP (holds record) := by
  rw [walk_eq_error_iff]
  constructor
  · rintro ⟨above, last, leads, fails⟩
    obtain ⟨ambiguous, named, counted⟩ := crowded_iff.mp fails
    exact ⟨above, last, leads.multi_of_binary, ambiguous, leads.not_ambiguous, named, counted⟩
  · rintro ⟨above, last, leads, ambiguous, calm, named, counted⟩
    exact ⟨above, last, leads.binary_of_multi calm, crowded_iff.mpr ⟨ambiguous, named, counted⟩⟩

/-- Scoring under a binary split is scoring under a multiple one with a check. Unless the check
fails the outcomes are equal, and it fails exactly if the walk under a multiple split visits an
ambiguous node; the first of these is the one reported. -/
theorem predict_binary_refines_multi (root : Node) (strategies : Strategies) (record : Record) :
    ((∀ label count,
        root.predict .binary strategies record ≠ .error (.multipleTrueChildren label count)) →
      root.predict .multi strategies record = root.predict .binary strategies record) ∧
    ((∃ label count,
        root.predict .binary strategies record = .error (.multipleTrueChildren label count)) ↔
      ∃ above node, Leads .multi record root above node ∧ node.Ambiguous record) ∧
    ∀ label count,
      root.predict .binary strategies record = .error (.multipleTrueChildren label count) ↔
      ∃ above node, Leads .multi record root above node ∧ node.Ambiguous record ∧
        (∀ earlier ∈ above, ¬earlier.Ambiguous record) ∧
        label = node.label ∧ count = node.children.countP (holds record) := by
  simp only [predict_eq_multipleTrueChildren_iff, ne_eq]
  refine ⟨fun calm => ?_, ?_, fun label count => walk_binary_eq_multipleTrueChildren_iff⟩
  · unfold predict
    rw [walk_multi_eq_binary calm]
  · simp only [walk_binary_eq_multipleTrueChildren_iff]
    constructor
    · rintro ⟨_, _, above, node, leads, ambiguous, _⟩
      exact ⟨above, node, leads, ambiguous⟩
    · rintro ⟨_, _, leads, ambiguous⟩
      obtain ⟨above, first, leads, ambiguous, calm⟩ := leads.exists_first ambiguous
      exact ⟨_, _, above, first, leads, ambiguous, calm, rfl, rfl⟩

/-- In a storm both tests hold. -/
def overlapping : Node where
  predicate := .always
  score := some "go"
  children := [
    { predicate := .compare "wind" .notEqual (some "calm"), score := some "wait" },
    { predicate := .compare "wind" .equal (some "storm"), score := some "stay" }]

theorem predict_binary_refines_multi_overlapping :
    overlapping.predict .multi {} (Table.empty.insert "wind" (.text "breeze")) =
      overlapping.predict .binary {} (Table.empty.insert "wind" (.text "breeze")) ∧
    ∃ above node,
      Leads .multi (Table.empty.insert "wind" (.text "storm")) overlapping above node ∧
      node.Ambiguous (Table.empty.insert "wind" (.text "storm")) ∧
      (∀ earlier ∈ above, ¬earlier.Ambiguous (Table.empty.insert "wind" (.text "storm"))) ∧
      "go" = node.label ∧
      2 = node.children.countP (holds (Table.empty.insert "wind" (.text "storm"))) := by
  have scored : overlapping.predict .binary {} (Table.empty.insert "wind" (.text "breeze")) =
      .ok _ := rfl
  have calm (label : String) (count : Nat) :
      overlapping.predict .binary {} (Table.empty.insert "wind" (.text "breeze")) ≠
        .error (.multipleTrueChildren label count) := by
    rw [scored]
    exact fun impossible => nomatch impossible
  exact ⟨(predict_binary_refines_multi overlapping {} _).1 calm,
    ((predict_binary_refines_multi overlapping {} _).2.2 "go" 2).mp rfl⟩

end DecisionTree.Node
