import DecisionTree.Proofs.Table
import DecisionTree.Proofs.Text.Encoding
import DecisionTree.Registry

/-!
Merging two registries. It succeeds exactly if they share no name, and the result then has under
every name the model of the one or of the other. Otherwise it stops at the smallest shared name,
where the models of the second registry under smaller names have been added and nothing else has
changed. No model is ever replaced.
-/

namespace DecisionTree

open Text (utf8)

namespace Registry

variable {registry other : Registry} {name : String} {model : Model}
  {models : Table Model} {entries before after : List (String × Model)}

/-- Both registries have a model of this name. -/
def Shares (registry other : Registry) (name : String) : Prop :=
  registry.models.contains name = true ∧ other.models.contains name = true

/-- The registries share no name. -/
def Apart (registry other : Registry) : Prop :=
  ∀ name, ¬Shares registry other name

/-- The shared name that comes first in the order of UTF-8 bytes. -/
structure IsFirstShared (registry other : Registry) (name : String) : Prop where
  shared : Shares registry other name
  least : ∀ key, Shares registry other key → utf8 name ≤ utf8 key

/-- A registry with the models of both; what the first one says of itself goes before. -/
structure Joins (registry other joined : Registry) : Prop where
  models : ∀ key, joined.models.get? key =
    (registry.models.get? key).or (other.models.get? key)
  size : joined.models.size = registry.models.size + other.models.size
  version : joined.version = registry.version.or other.version
  description : joined.description = registry.description.or other.description

/-- The first registry with those models of the second one whose names come before a name. -/
structure StopsAt (name : String) (registry other stopped : Registry) : Prop where
  models : ∀ key, stopped.models.get? key =
    (registry.models.get? key).or
      (if utf8 key < utf8 name then other.models.get? key else none)
  version : stopped.version = registry.version
  description : stopped.description = registry.description

/-- What merging two registries gives: the registry, and the name that was taken if one was. -/
inductive Merges (registry other : Registry) : Registry × Option String → Prop
  | joined {joined : Registry} (apart : Apart registry other)
      (joins : Joins registry other joined) : Merges registry other (joined, none)
  | stopped {name : String} {stopped : Registry} (first : IsFirstShared registry other name)
      (stops : StopsAt name registry other stopped) : Merges registry other (stopped, some name)

theorem shares_iff_exists_mem :
    Shares registry other name ↔
      registry.models.contains name = true ∧ ∃ model, (name, model) ∈ other.models.entries := by
  apply and_congr_right
  intro _
  rw [Table.contains, Option.isSome_iff_exists]
  simp only [Table.get?_eq_some_iff]

/-- New entries are added, and what follows them is added to the result. -/
theorem addNew_append (isNew : models.IsNew entries) (rest : List (String × Model)) :
    addNew models (entries ++ rest) = addNew (models.insertAll entries) rest := by
  induction entries generalizing models with
  | nil => rfl
  | cons entry entries ih =>
    rw [List.cons_append, addNew, isNew.head, Table.insertAll_cons, ← ih isNew.tail]
    rfl

private theorem addNew_of_isNew (isNew : models.IsNew entries) :
    addNew models entries = (models.insertAll entries, none) := by
  have whole := addNew_append isNew []
  rwa [List.append_nil] at whole

private theorem addNew_of_taken (isNew : models.IsNew before)
    (taken : models.contains name = true) :
    addNew models (before ++ (name, model) :: after) = (models.insertAll before, some name) := by
  have kept : (models.insertAll before).contains name = true := by
    rw [Table.contains, Table.get?_insertAll isNew, Option.isSome_or]
    exact Bool.or_eq_true_iff.mpr (.inl taken)
  rw [addNew_append isNew, addNew, kept]
  rfl

private theorem isNew_of_apart (apart : Apart registry other) :
    registry.models.IsNew other.models.entries := by
  refine ⟨other.models.nodup_names, ?_⟩
  intro entry member
  rw [Bool.eq_false_iff]
  intro taken
  exact apart entry.1 (shares_iff_exists_mem.mpr ⟨taken, entry.2, member⟩)

theorem merge_of_apart (apart : Apart registry other) :
    Merges registry other (registry.merge other) := by
  have isNew := isNew_of_apart apart
  rw [merge, addNew_of_isNew isNew]
  refine .joined apart ⟨?_, ?_, rfl, rfl⟩
  · intro key
    exact Table.get?_insertAll isNew
  · exact Table.size_insertAll isNew

/-- Before the first entry of the second registry whose name is taken, all names are new. -/
theorem exists_first_taken (shared : ¬Apart registry other) :
    ∃ before name model after, other.models.entries = before ++ (name, model) :: after ∧
      registry.models.IsNew before ∧ registry.models.contains name = true := by
  obtain ⟨key, shared⟩ := not_forall_not.mp shared
  obtain ⟨taken, value, member⟩ := shares_iff_exists_mem.mp shared
  have some : (other.models.entries.find? (registry.models.contains ·.1)).isSome = true :=
    List.find?_isSome.mpr ⟨(key, value), member, taken⟩
  obtain ⟨⟨name, model⟩, found⟩ := Option.isSome_iff_exists.mp some
  obtain ⟨taken, before, after, split, fresh⟩ := List.find?_eq_some_iff_append.mp found
  refine ⟨before, name, model, after, split, ⟨?_, ?_⟩, taken⟩
  · have distinct := other.models.nodup_names
    rw [split, List.map_append] at distinct
    exact distinct.of_append_left
  · intro entry member
    simpa using fresh entry member

theorem merge_of_shared (shared : ¬Apart registry other) :
    Merges registry other (registry.merge other) := by
  obtain ⟨before, name, model, after, split, isNew, taken⟩ := exists_first_taken shared
  have ascending := other.models.ascending
  rw [split] at ascending
  have member : (name, model) ∈ other.models.entries := by simp [split]
  rw [merge, split, addNew_of_taken isNew taken]
  refine .stopped ⟨shares_iff_exists_mem.mpr ⟨taken, model, member⟩, ?_⟩ ⟨?_, rfl, rfl⟩
  · intro key common less
    obtain ⟨there, value, member⟩ := shares_iff_exists_mem.mp common
    have found : before.lookup key = some value := by
      rw [Table.lookup_before ascending, if_pos (Text.utf8_lt_iff.mp less), ← split]
      exact Table.get?_eq_some_iff.mpr member
    obtain ⟨_, _, rfl, -⟩ := List.lookup_eq_some_iff.mp found
    have absent := isNew.absent (key, value) (by simp)
    rw [there] at absent
    cases absent
  · intro key
    rw [Table.get?_insertAll isNew, Table.lookup_before ascending, ← split]
    simp only [Text.utf8_lt_iff]
    rfl

theorem merges_merge (registry other : Registry) :
    Merges registry other (registry.merge other) := by
  by_cases apart : Apart registry other
  · exact merge_of_apart apart
  · exact merge_of_shared apart

theorem Merges.eq_none_iff {outcome : Registry × Option String}
    (merges : Merges registry other outcome) : outcome.2 = none ↔ Apart registry other := by
  cases merges with
  | joined apart _ => exact iff_of_true rfl apart
  | stopped first _ =>
    constructor
    · intro impossible
      cases impossible
    · intro apart
      exact absurd first.shared (apart _)

private theorem Merges.keeps {outcome : Registry × Option String}
    (merges : Merges registry other outcome)
    (held : registry.models.get? name = some model) :
    outcome.1.models.get? name = some model := by
  cases merges with
  | joined _ joins => rw [joins.models, held, Option.some_or]
  | stopped _ stops => rw [stops.models, held, Option.some_or]

/-- Merging succeeds exactly if no name is shared, gives what is expected of it, and keeps every
model of the first registry. -/
theorem merge_exact (registry other : Registry) :
    ((registry.merge other).2 = none ↔ Apart registry other) ∧
      Merges registry other (registry.merge other) ∧
      ∀ name model, registry.models.get? name = some model →
        (registry.merge other).1.models.get? name = some model := by
  have merges := merges_merge registry other
  refine ⟨merges.eq_none_iff, merges, ?_⟩
  intro name model held
  exact merges.keeps held

end Registry
end DecisionTree
