import DecisionTree.Command.Loading
import DecisionTree.Proofs.Registry.Merge
import DecisionTree.Proofs.Sequence

namespace DecisionTree

namespace Registry

variable {registry other joined merged again : Registry} {registries others : List Registry}
  {name : String} {model : Model}

/-- Merges registries into one, one after the other. The first name that is taken is the failure. -/
def mergeAll (registry : Registry) : List Registry → Except String Registry
  | [] => .ok registry
  | other :: rest =>
    match registry.merge other with
    | (merged, none) => mergeAll merged rest
    | (_, some name) => .error name

/-- One registry with the models of several; what the first of them say of themselves counts. -/
structure JoinsAll (registries : List Registry) (merged : Registry) : Prop where
  models : ∀ name, merged.models.get? name = registries.findSome? (·.models.get? name)
  version : merged.version = registries.findSome? (·.version)
  description : merged.description = registries.findSome? (·.description)

theorem mergeAll_cons_eq_ok_iff :
    mergeAll registry (other :: others) = .ok merged ↔
      ∃ joined, registry.merge other = (joined, none) ∧ mergeAll joined others = .ok merged := by
  rw [mergeAll]
  split
  next joined success => simp [success]
  next stopped name failure => simp [failure]

theorem Apart.symm (apart : Apart registry other) : Apart other registry := by
  intro name shared
  exact apart name ⟨shared.2, shared.1⟩

private theorem apart_empty (registry : Registry) : Apart {} registry := by
  intro name shared
  cases shared.1

theorem Joins.apart_iff (joins : Joins registry other joined) {third : Registry} :
    Apart joined third ↔ Apart registry third ∧ Apart other third := by
  have either (name : String) : joined.models.contains name =
      (registry.models.contains name || other.models.contains name) := by
    rw [Table.contains, joins.models, Option.isSome_or]
    rfl
  simp only [Apart, Shares, either, Bool.or_eq_true, or_and_right, not_or, forall_and]

theorem exists_joined_iff :
    (∃ joined, registry.merge other = (joined, none)) ↔ Apart registry other := by
  rw [← (merges_merge registry other).eq_none_iff]
  constructor
  · rintro ⟨joined, success⟩
    rw [success]
  · intro success
    exact ⟨_, Prod.ext rfl success⟩

theorem joins_of_merge (success : registry.merge other = (joined, none)) :
    Joins registry other joined := by
  have merges := merges_merge registry other
  rw [success] at merges
  cases merges with
  | joined _ joins => exact joins

/-- All goes into one registry exactly if no two of the registries share a name. -/
theorem mergeAll_isOk_iff :
    (∃ merged, mergeAll registry others = .ok merged) ↔ (registry :: others).Pairwise Apart := by
  induction others generalizing registry with
  | nil => simp [mergeAll]
  | cons other rest ih =>
    have step : (∃ merged, mergeAll registry (other :: rest) = .ok merged) ↔
        ∃ joined, registry.merge other = (joined, none) ∧ (joined :: rest).Pairwise Apart := by
      simp only [mergeAll_cons_eq_ok_iff, ← ih]
      tauto
    rw [step, List.pairwise_cons, List.forall_mem_cons, List.pairwise_cons]
    constructor
    · rintro ⟨joined, success, pairwise⟩
      obtain ⟨each, rest⟩ := List.pairwise_cons.mp pairwise
      have joins := joins_of_merge success
      refine ⟨⟨exists_joined_iff.mp ⟨joined, success⟩, ?_⟩, ?_, rest⟩
      · intro third member
        exact (joins.apart_iff.mp (each third member)).1
      · intro third member
        exact (joins.apart_iff.mp (each third member)).2
    · rintro ⟨⟨apart, first⟩, second, rest⟩
      obtain ⟨joined, success⟩ := exists_joined_iff.mpr apart
      refine ⟨joined, success, List.pairwise_cons.mpr ⟨?_, rest⟩⟩
      intro third member
      exact (joins_of_merge success).apart_iff.mpr ⟨first third member, second third member⟩

private theorem findSome?_cons_eq_or {α β : Type} (f : α → Option β) (x : α) (xs : List α) :
    (x :: xs).findSome? f = (f x).or (xs.findSome? f) := by
  rw [List.findSome?_cons]
  cases f x <;> rfl

theorem joinsAll_of_mergeAll (success : mergeAll registry others = .ok merged) :
    JoinsAll (registry :: others) merged := by
  induction others generalizing registry with
  | nil =>
    cases success
    refine ⟨?_, ?_, ?_⟩
    · intro name
      simp
    · simp
    · simp
  | cons other rest ih =>
    obtain ⟨joined, first, success⟩ := mergeAll_cons_eq_ok_iff.mp success
    have joins := joins_of_merge first
    have later := ih success
    refine ⟨?_, ?_, ?_⟩
    · intro name
      rw [later.models, findSome?_cons_eq_or, joins.models, Option.or_assoc]
      simp only [findSome?_cons_eq_or]
    · rw [later.version, findSome?_cons_eq_or, joins.version, Option.or_assoc]
      simp only [findSome?_cons_eq_or]
    · rw [later.description, findSome?_cons_eq_or, joins.description, Option.or_assoc]
      simp only [findSome?_cons_eq_or]

theorem mergeAll_empty_isOk_iff :
    (∃ merged, mergeAll {} registries = .ok merged) ↔ registries.Pairwise Apart := by
  rw [mergeAll_isOk_iff, List.pairwise_cons, and_iff_right]
  intro other _
  exact apart_empty other

theorem joinsAll_of_mergeAll_empty (success : mergeAll {} registries = .ok merged) :
    JoinsAll registries merged := by
  obtain ⟨models, version, description⟩ := joinsAll_of_mergeAll success
  exact ⟨models, version, description⟩

/-- Under a name there is a model exactly if one of the registries has it there. -/
theorem get?_eq_some_iff_of_joinsAll (apart : registries.Pairwise Apart)
    (joins : JoinsAll registries merged) :
    merged.models.get? name = some model ↔
      ∃ registry ∈ registries, registry.models.get? name = some model := by
  rw [joins.models]
  constructor
  · exact List.exists_of_findSome?_eq_some
  · rintro ⟨registry, member, held⟩
    obtain ⟨before, after, rfl⟩ := List.append_of_mem member
    refine List.findSome?_eq_some_iff.mpr ⟨before, registry, after, rfl, held, ?_⟩
    intro earlier inside
    have apart := (List.pairwise_append.mp apart).2.2 earlier inside registry List.mem_cons_self
    apply Table.contains_eq_false_iff.mp
    rw [Bool.eq_false_iff]
    intro taken
    exact apart name ⟨taken, by simp [Table.contains, held]⟩

private theorem models_eq_of_perm (perm : registries.Perm others)
    (apart : registries.Pairwise Apart)
    (first : JoinsAll registries merged) (second : JoinsAll others again) :
    merged.models = again.models := by
  have apart' : others.Pairwise Apart := (perm.pairwise_iff Apart.symm).mp apart
  apply Table.ext_get?
  intro name
  apply Option.ext
  intro model
  rw [get?_eq_some_iff_of_joinsAll apart first, get?_eq_some_iff_of_joinsAll apart' second]
  simp only [perm.mem_iff]

end Registry

namespace Command

open Registry (mergeAll)
open Sequence (bind_eq_ok_iff mapM_cons_eq_ok_iff)

variable {registry merged : Registry} {sources : List Source}

/-- Loading documents succeeds exactly if each of them loads and their registries can be merged. -/
theorem loadInto_eq_ok_iff :
    loadInto registry sources = .ok merged ↔
      ∃ loaded, sources.mapM Source.load = .ok loaded ∧ mergeAll registry loaded = .ok merged := by
  induction sources generalizing registry with
  | nil => simp [loadInto, mergeAll, pure, Except.pure]
  | cons source rest ih =>
    have step : loadInto registry (source :: rest) = .ok merged ↔
        ∃ other, source.load = .ok other ∧
          ∃ joined, registry.merge other = (joined, none) ∧ loadInto joined rest = .ok merged := by
      rw [loadInto, bind_eq_ok_iff]
      apply exists_congr
      intro other
      apply and_congr_right
      intro _
      split
      next joined success => simp [success]
      next stopped name failure => simp [failure, throw, throwThe, MonadExceptOf.throw]
    simp only [step, ih, mapM_cons_eq_ok_iff]
    constructor
    · rintro ⟨other, read, joined, success, others, reads, later⟩
      exact ⟨_, ⟨other, others, read, reads, rfl⟩,
        Registry.mergeAll_cons_eq_ok_iff.mpr ⟨joined, success, later⟩⟩
    · rintro ⟨_, ⟨other, others, read, reads, rfl⟩, whole⟩
      obtain ⟨joined, success, later⟩ := Registry.mergeAll_cons_eq_ok_iff.mp whole
      exact ⟨other, read, joined, success, others, reads, later⟩

/-- Registries go into one exactly if no two of them share a name, whatever their order is. The order
does not change the models either, and what is said of them is what the first registries say. The
registry of several documents is made this way. -/
theorem mergeAll_order {registries others : List Registry} (perm : registries.Perm others) :
    ((∃ merged, mergeAll {} registries = .ok merged) ↔ registries.Pairwise Registry.Apart) ∧
      ((∃ merged, mergeAll {} registries = .ok merged) ↔
        ∃ again, mergeAll {} others = .ok again) ∧
      (∀ merged, mergeAll {} registries = .ok merged →
        Registry.JoinsAll registries merged ∧
          ∀ again, mergeAll {} others = .ok again → merged.models = again.models) ∧
      ∀ sources registry, loadAll sources = .ok registry ↔
        ∃ loaded, sources.mapM Source.load = .ok loaded ∧ mergeAll {} loaded = .ok registry := by
  have possible : (∃ merged, mergeAll {} registries = .ok merged) ↔
      registries.Pairwise Registry.Apart := Registry.mergeAll_empty_isOk_iff
  refine ⟨possible, ?_, ?_, ?_⟩
  · rw [possible, Registry.mergeAll_empty_isOk_iff]
    exact perm.pairwise_iff Registry.Apart.symm
  · intro merged success
    have joins := Registry.joinsAll_of_mergeAll_empty success
    refine ⟨joins, ?_⟩
    intro again success'
    exact Registry.models_eq_of_perm perm (possible.mp ⟨merged, success⟩) joins
      (Registry.joinsAll_of_mergeAll_empty success')
  · intro sources registry
    exact loadInto_eq_ok_iff

/-- A registry with one model, which gives the same answer for every record. -/
def constant (name answer : String) (version : Option String) : Registry where
  version := version
  models := Table.empty.insert name { root := { predicate := .always, score := some answer } }

/-- Three registries; the second one is the first that has a version. -/
def seasons : List Registry :=
  [constant "spring" "mild" none, constant "winter" "cold" (some "4.1"),
    constant "summer" "warm" (some "4.4")]

theorem mergeAll_order_seasons :
    seasons.Perm seasons.reverse ∧
      ∃ merged again, mergeAll {} seasons = .ok merged ∧
        mergeAll {} seasons.reverse = .ok again ∧ merged.models = again.models ∧
        merged.version = some "4.1" ∧ again.version = some "4.4" := by
  have perm : seasons.Perm seasons.reverse := (List.reverse_perm seasons).symm
  obtain ⟨merged, success⟩ : ∃ merged, mergeAll {} seasons = .ok merged := ⟨_, rfl⟩
  obtain ⟨-, possible, joins, -⟩ := mergeAll_order perm
  obtain ⟨again, success'⟩ := possible.mp ⟨merged, success⟩
  obtain ⟨-, -, joins', -⟩ := mergeAll_order perm.symm
  obtain ⟨said, same⟩ := joins merged success
  exact ⟨perm, merged, again, success, success', same again success', said.version,
    (joins' again success').1.version⟩

end Command
end DecisionTree
