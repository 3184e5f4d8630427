import DecisionTree.Proofs.Predicate.Parts
import Mathlib.Data.List.Basic
import Mathlib.Data.List.Induction

namespace DecisionTree.Predicate

/-- The field that a test names; constants and compounds name none themselves. -/
def testedField? : Predicate → Option String
  | .compare field _ _ => some field
  | .member field _ _ => some field
  | _ => none

mutual

theorem addFields_eq_foldl (names : List String) (predicate : Predicate) :
    addFields names predicate = (predicate.parts.filterMap testedField?).foldl addName names := by
  cases predicate with
  | always | never | compare | member => rfl
  | compound operator operands => exact addFieldsOfAll_eq_foldl names operands

theorem addFieldsOfAll_eq_foldl (names : List String) (operands : List Predicate) :
    addFieldsOfAll names operands =
      ((partsOfAll operands).filterMap testedField?).foldl addName names := by
  cases operands with
  | nil => rfl
  | cons operand rest =>
    rw [addFieldsOfAll, partsOfAll, List.filterMap_append, List.foldl_append,
      addFields_eq_foldl names operand, addFieldsOfAll_eq_foldl]

end

/-- The fields that tests name, as often as they do, from left to right through all compounds. -/
def uses (predicate : Predicate) : List String :=
  predicate.parts.filterMap testedField?

/-- Names are collected over the tests from left to right. -/
theorem fields_eq_foldl (predicate : Predicate) :
    predicate.fields = predicate.uses.foldl addName [] :=
  addFields_eq_foldl [] predicate

/-- One more use is kept behind the first uses so far unless its name is among them. -/
theorem addName_eraseDups (used : List String) (name : String) :
    addName used.eraseDups name = (used ++ [name]).eraseDups := by
  rw [addName, List.eraseDups_append]
  by_cases present : name ∈ used
  · simp [present, List.removeAll]
  · simp [present, List.removeAll, List.eraseDups_cons]

/-- Names that are added to first uses become the first uses of all. -/
theorem foldl_addName_eraseDups (used more : List String) :
    more.foldl addName used.eraseDups = (used ++ more).eraseDups := by
  induction more generalizing used with
  | nil => rw [List.foldl_nil, List.append_nil]
  | cons name rest ih =>
    rw [List.foldl_cons, addName_eraseDups, ih, List.append_assoc, List.singleton_append]

/-- Of all uses the first one of each name is listed. -/
theorem fields_eq_eraseDups (predicate : Predicate) :
    predicate.fields = predicate.uses.eraseDups := by
  rw [fields_eq_foldl]
  exact foldl_addName_eraseDups [] predicate.uses

/-- A field is listed exactly if some test at any depth names it. -/
theorem mem_fields_iff {predicate : Predicate} {name : String} :
    name ∈ predicate.fields ↔ ∃ part ∈ predicate.parts, part.testedField? = some name := by
  rw [fields_eq_eraseDups, List.mem_eraseDups, uses, List.mem_filterMap]

/-- A test that names a field is a comparison, presence tests included, or a membership test. -/
theorem exists_test_iff {predicate : Predicate} {name : String} :
    (∃ part ∈ predicate.parts, part.testedField? = some name) ↔
      (∃ operator literal, compare name operator literal ∈ predicate.parts) ∨
        ∃ operator literals, member name operator literals ∈ predicate.parts := by
  constructor
  · rintro ⟨part, inside, named⟩
    cases part with
    | compare field operator literal =>
      cases named
      exact .inl ⟨operator, literal, inside⟩
    | member field operator literals =>
      cases named
      exact .inr ⟨operator, literals, inside⟩
    | always | never | compound => cases named
  · rintro (⟨operator, literal, inside⟩ | ⟨operator, literals, inside⟩)
    · exact ⟨_, inside, rfl⟩
    · exact ⟨_, inside, rfl⟩

/-- What is listed later was first used later. A further use keeps the order: where it is not the
first one of its name nothing is listed, and otherwise it comes behind all that are. -/
theorem pairwise_eraseDups (used : List String) :
    used.eraseDups.Pairwise fun earlier later => used.idxOf earlier < used.idxOf later := by
  -- from the end, as the uses are collected: each further one has the places of all others kept
  induction used using List.reverseRecOn with
  | nil => exact .nil
  | append_singleton used name ih =>
    have kept : used.eraseDups.Pairwise fun earlier later =>
        (used ++ [name]).idxOf earlier < (used ++ [name]).idxOf later := by
      refine ih.imp_of_mem fun first second before => ?_
      rwa [List.idxOf_append_of_mem (List.mem_eraseDups.mp first),
        List.idxOf_append_of_mem (List.mem_eraseDups.mp second)]
    rw [← addName_eraseDups, addName]
    split
    next => exact kept
    next absent =>
      rw [List.contains_iff_mem, List.mem_eraseDups] at absent
      refine List.pairwise_append.mpr ⟨kept, List.pairwise_singleton _ _, fun earlier listed => ?_⟩
      have place : used.idxOf earlier < used.length :=
        List.idxOf_lt_length_iff.mpr (List.mem_eraseDups.mp listed)
      rw [List.forall_mem_singleton, List.idxOf_append_of_mem (List.mem_eraseDups.mp listed),
        List.idxOf_append_of_notMem absent]
      omega

/-- The fields of a predicate are the names in its comparisons and membership tests at any depth,
each once and in the order of their first use from left to right. -/
theorem fields_firstUses (predicate : Predicate) :
    predicate.fields = predicate.uses.eraseDups ∧
    predicate.fields.Nodup ∧
    (∀ name, name ∈ predicate.fields ↔
      (∃ operator literal, compare name operator literal ∈ predicate.parts) ∨
        ∃ operator literals, member name operator literals ∈ predicate.parts) ∧
    predicate.fields.Pairwise fun earlier later =>
      predicate.uses.idxOf earlier < predicate.uses.idxOf later := by
  have ordered : predicate.fields.Pairwise fun earlier later =>
      predicate.uses.idxOf earlier < predicate.uses.idxOf later := by
    rw [fields_eq_eraseDups]
    exact pairwise_eraseDups predicate.uses
  have distinct : predicate.fields.Nodup :=
    ordered.imp fun before same => (Nat.ne_of_lt before) (congrArg predicate.uses.idxOf same)
  exact ⟨fields_eq_eraseDups predicate, distinct, fun _ => mem_fields_iff.trans exists_test_iff,
    ordered⟩

example : fields (.compound .and [.compare "temperature" .lessThan (some "90"),
    .compound .or [.compare "windy" .isMissing none, .member "outlook" .isIn ["sunny"]],
    .compare "temperature" .greaterThan (some "50")]) = ["temperature", "windy", "outlook"] := by
  decide

end DecisionTree.Predicate
