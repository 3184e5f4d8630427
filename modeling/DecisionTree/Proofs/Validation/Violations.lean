import DecisionTree.Validation
import DecisionTree.Proofs.Number.Finite

namespace DecisionTree

variable {x : Float} {index start : Nat} {entry : Distribution} {entries : List Distribution}
  {split : Split} {node : Node} {violation : Violation} {reported others : List Violation}

/-- Not in `[0, 1]`, which includes what is not a number. -/
def OutsideUnit (x : Float) : Prop :=
  x.isNaN = true ∨ x < 0 ∨ 1 < x

theorem isProbability_eq_false_iff : isProbability x = false ↔ OutsideUnit x := by
  unfold isProbability OutsideUnit
  rw [Bool.and_eq_false_iff, decide_eq_false_iff_not, decide_eq_false_iff_not]
  cases nan : x.isNaN with
  | true => exact iff_of_true (.inl (Number.not_le_of_isNaN nan)) (.inl rfl)
  | false =>
    have below : x < 0 ↔ ¬0 ≤ x := Number.lt_iff_not_le_of_number nan (by decide)
    have above : 1 < x ↔ ¬x ≤ 1 := Number.lt_iff_not_le_of_number (by decide) nan
    rw [← below, ← above]
    simp

namespace Distribution

/-- What is wrong with the distribution entry at an index. -/
inductive Violates (entry : Distribution) (index : Nat) : Violation → Prop
  | negativeCount (negative : entry.recordCount < 0) :
      Violates entry index (.negativeDistributionCount index)
  | confidenceOutside {confidence : Float} (stated : entry.confidence = some confidence)
      (outside : OutsideUnit confidence) :
      Violates entry index (.confidenceOutside index confidence)

theorem mem_violations_iff :
    violation ∈ entry.violations index ↔ entry.Violates index violation := by
  unfold violations
  rw [List.mem_append, List.mem_ite_nil_right, List.mem_singleton]
  constructor
  · rintro (⟨negative, rfl⟩ | confidence)
    · exact .negativeCount negative
    · split at confidence
      next stated found =>
        rw [List.mem_ite_nil_left, List.mem_singleton, Bool.not_eq_true,
          isProbability_eq_false_iff] at confidence
        obtain ⟨outside, rfl⟩ := confidence
        exact .confidenceOutside found outside
      next => cases confidence
  · rintro (negative | ⟨stated, outside⟩)
    · exact .inl ⟨negative, rfl⟩
    · right
      simp [stated, isProbability_eq_false_iff.mpr outside]

theorem mem_violationsFrom_iff : violation ∈ violationsFrom start entries ↔
    ∃ index, ∃ entry : Distribution, entries[index]? = some entry ∧
      entry.Violates (start + index) violation := by
  induction entries generalizing start with
  | nil => simp [violationsFrom]
  | cons first rest ih =>
    rw [violationsFrom, List.mem_append, mem_violations_iff, ih]
    constructor
    · rintro (here | ⟨index, entry, listed, wrong⟩)
      · exact ⟨0, first, rfl, here⟩
      · exact ⟨index + 1, entry, listed, by rwa [Nat.add_right_comm] at wrong⟩
    · rintro ⟨index, entry, listed, wrong⟩
      cases index with
      | zero =>
        cases listed
        exact .inl wrong
      | succ index => exact .inr ⟨index, entry, listed, by rwa [Nat.add_right_comm]⟩

end Distribution

/-- What is wrong with a node itself, under a split. -/
inductive Node.Violates (split : Split) (node : Node) : Violation → Prop
  | tooManyChildren (binary : split = .binary) (many : 2 < node.children.length) :
      Violates split node (.tooManyChildren node.children.length)
  | negativeCount {count : Float} (stated : node.recordCount = some count)
      (negative : count < 0) : Violates split node .negativeCount
  | distribution {index : Nat} {entry : Distribution} {violation : Violation}
      (listed : node.distributions[index]? = some entry)
      (wrong : entry.Violates index violation) : Violates split node violation
  | leafWithoutScore (leaf : node.children = []) (unscored : node.score = none) :
      Violates split node .leafWithoutScore

theorem Node.mem_violations_iff :
    violation ∈ node.violations split ↔ node.Violates split violation := by
  unfold violations
  simp only [List.mem_append, List.mem_ite_nil_right, List.mem_singleton]
  constructor
  · rintro (((⟨⟨binary, many⟩, rfl⟩ | count) | distributions) | ⟨missing, rfl⟩)
    · exact .tooManyChildren binary many
    · split at count
      next stated found =>
        rw [List.mem_ite_nil_right, List.mem_singleton] at count
        obtain ⟨negative, rfl⟩ := count
        exact .negativeCount found negative
      next => cases count
    · obtain ⟨index, entry, listed, wrong⟩ := Distribution.mem_violationsFrom_iff.mp distributions
      rw [Nat.zero_add] at wrong
      exact .distribution listed wrong
    · obtain ⟨leaf, unscored⟩ := (Bool.and_eq_true _ _).mp missing
      exact .leafWithoutScore (List.isEmpty_iff.mp leaf) (Option.isNone_iff_eq_none.mp unscored)
  · rintro (⟨binary, many⟩ | ⟨stated, negative⟩ | ⟨listed, wrong⟩ | ⟨leaf, unscored⟩)
    · exact .inl (.inl (.inl ⟨⟨binary, many⟩, rfl⟩))
    · simp [stated, negative]
    · refine .inl (.inr (Distribution.mem_violationsFrom_iff.mpr ⟨_, _, listed, ?_⟩))
      rwa [Nat.zero_add]
    · simp [isLeaf, leaf, unscored]

theorem Node.not_violates_of_violations_eq_nil (sound : node.violations split = [])
    (violation : Violation) : ¬node.Violates split violation := by
  rw [← mem_violations_iff, sound]
  exact List.not_mem_nil

/-- What is checked of a distribution entry. The count is only compared with zero, so that it may
also be infinite or not a number. -/
structure Distribution.Checked (distribution : Distribution) : Prop where
  count : ¬distribution.recordCount < 0
  confidence : ∀ stated, distribution.confidence = some stated → isProbability stated = true

theorem Node.checked_of_violations_eq_nil (sound : node.violations split = []) :
    ∀ entry ∈ node.distributions, entry.Checked := by
  intro entry member
  obtain ⟨index, listed⟩ := List.mem_iff_getElem?.mp member
  have fine (violation : Violation) : ¬entry.Violates index violation := fun wrong =>
    not_violates_of_violations_eq_nil sound violation (.distribution listed wrong)
  refine ⟨fun negative => fine _ (.negativeCount negative), fun stated found => ?_⟩
  cases inside : isProbability stated with
  | true => rfl
  | false => exact absurd (.confidenceOutside found (isProbability_eq_false_iff.mp inside)) (fine _)

namespace Violation

/-- The check that a violation comes from, and its place among the checks of the distribution. -/
def turn : Violation → Nat × Nat
  | .tooManyChildren _ => (0, 0)
  | .negativeCount => (1, 0)
  | .negativeDistributionCount index => (2, 2 * index)
  | .confidenceOutside index _ => (2, 2 * index + 1)
  | .leafWithoutScore => (3, 0)

/-- The order in which the violations of one node are reported. -/
def Before (first second : Violation) : Prop :=
  first.turn.1 < second.turn.1 ∨ first.turn.1 = second.turn.1 ∧ first.turn.2 < second.turn.2

private theorem Before.of_checks {first second : Violation} {m n : Nat} (earlier : first.turn.1 = m)
    (later : second.turn.1 = n) (less : m < n) : first.Before second :=
  .inl (by rwa [earlier, later])

private theorem Before.asymm {first second : Violation} (before : first.Before second) :
    ¬second.Before first := by
  unfold Before at *
  omega

end Violation

theorem Distribution.Violates.turn (wrong : entry.Violates index violation) :
    violation.turn.1 = 2 ∧ 2 * index ≤ violation.turn.2 ∧ violation.turn.2 ≤ 2 * index + 1 := by
  cases wrong <;> simp [Violation.turn]

theorem Distribution.pairwise_violations : (entry.violations index).Pairwise Violation.Before := by
  unfold violations
  split <;> split <;> try split
  all_goals simp [Violation.Before, Violation.turn]

theorem Distribution.pairwise_violationsFrom :
    (violationsFrom start entries).Pairwise Violation.Before := by
  induction entries generalizing start with
  | nil => exact .nil
  | cons first rest ih =>
    rw [violationsFrom, List.pairwise_append]
    refine ⟨pairwise_violations, ih, fun earlier here later there => ?_⟩
    have before := (mem_violations_iff.mp here).turn
    obtain ⟨offset, entry, -, wrong⟩ := mem_violationsFrom_iff.mp there
    have after := wrong.turn
    unfold Violation.Before
    omega

/-- What a node reports at most, with whatever its distribution entries report. -/
theorem pairwise_checks (count : Nat) : List.Pairwise Violation.Before
    ([.tooManyChildren count] ++ [.negativeCount] ++ Distribution.violationsFrom 0 entries ++
      [.leafWithoutScore]) := by
  have check {violation : Violation}
      (reported : violation ∈ Distribution.violationsFrom 0 entries) : violation.turn.1 = 2 := by
    obtain ⟨_, _, -, wrong⟩ := Distribution.mem_violationsFrom_iff.mp reported
    exact wrong.turn.1
  simp only [List.pairwise_append, List.mem_append, List.mem_singleton]
  refine ⟨⟨⟨List.pairwise_singleton _ _, List.pairwise_singleton _ _, ?_⟩,
    Distribution.pairwise_violationsFrom, ?_⟩, List.pairwise_singleton _ _, ?_⟩
  · rintro _ rfl _ rfl
    exact .of_checks rfl rfl Nat.zero_lt_one
  · rintro _ (rfl | rfl) entry reported
    · exact .of_checks rfl (check reported) Nat.zero_lt_two
    · exact .of_checks rfl (check reported) Nat.one_lt_two
  · rintro _ ((rfl | rfl) | reported) _ rfl
    · exact .of_checks rfl rfl (Nat.zero_lt_succ 2)
    · exact .of_checks rfl rfl (Nat.succ_lt_succ Nat.zero_lt_two)
    · exact .of_checks (check reported) rfl (Nat.lt_succ_self 2)

theorem Node.pairwise_violations : (node.violations split).Pairwise Violation.Before := by
  refine (pairwise_checks node.children.length).sublist (.append (.append (.append ?_ ?_)
    (.refl _)) ?_)
  · split <;> simp
  · split
    · split <;> simp
    · simp
  · split <;> simp

/-- A list of exactly the violations of a node, in the order of the checks. -/
structure Node.Reports (split : Split) (node : Node) (reported : List Violation) : Prop where
  exact : ∀ violation, violation ∈ reported ↔ node.Violates split violation
  ordered : reported.Pairwise Violation.Before

theorem Node.Reports.unique (first : node.Reports split reported)
    (second : node.Reports split others) : reported = others := by
  have distinct {violations : List Violation} (ordered : violations.Pairwise Violation.Before) :
      violations.Nodup :=
    ordered.imp fun before same => by
      subst same
      exact before.asymm before
  have permuted : reported.Perm others :=
    (List.perm_ext_iff_of_nodup (distinct first.ordered) (distinct second.ordered)).mpr
      fun violation => (first.exact violation).trans (second.exact violation).symm
  exact permuted.eq_of_pairwise (fun _ _ _ _ before after => absurd after before.asymm)
    first.ordered second.ordered

/-- There is one way to report a node, and it is that of the check. -/
theorem Node.reports_iff : node.Reports split reported ↔ reported = node.violations split := by
  have checked : node.Reports split (node.violations split) :=
    ⟨fun _ => mem_violations_iff, pairwise_violations⟩
  constructor
  · intro reports
    exact reports.unique checked
  · rintro rfl
    exact checked

end DecisionTree
