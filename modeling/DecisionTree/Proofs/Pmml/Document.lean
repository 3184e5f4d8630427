import DecisionTree.Pmml.Document
import DecisionTree.Proofs.Pmml.Predicate
import DecisionTree.Proofs.Tree.Nodes

namespace DecisionTree

/-- Every node of the tree has a well-formed predicate. -/
def Node.WellFormed (root : Node) : Prop :=
  ∀ node ∈ root.nodes, node.predicate.WellFormed

theorem Node.wellFormed_iff {root : Node} :
    root.WellFormed ↔ root.predicate.WellFormed ∧ ∀ child ∈ root.children, child.WellFormed := by
  unfold WellFormed
  rw [nodes_eq_cons, List.forall_mem_cons]
  simp only [descendants, mem_nodesOfAll]
  constructor
  · rintro ⟨top, below⟩
    exact ⟨top, fun child member node inside => below node ⟨child, member, inside⟩⟩
  · rintro ⟨top, below⟩
    refine ⟨top, ?_⟩
    rintro node ⟨child, member, inside⟩
    exact below child member node inside

/-- Every tree of the registry has well-formed predicates only. -/
def Registry.WellFormed (registry : Registry) : Prop :=
  ∀ name model, registry.models.get? name = some model → model.root.WellFormed

namespace Pmml

open Xml (Content Attribute)
open Sequence (bind_eq_ok_iff map_eq_ok_iff)

variable {attributes : List Attribute} {content : List Content} {item : Content} {node : Node}

structure NodeParts.WellFormed (parts : NodeParts) : Prop where
  predicate : ∀ predicate, parts.predicate = some predicate → predicate.WellFormed
  children : ∀ child ∈ parts.children, child.WellFormed

namespace NodeParts

variable {parts next : NodeParts}

theorem empty_wellFormed : WellFormed {} where
  predicate := fun _ absent => nomatch absent
  children := fun _ absent => nomatch absent

theorem WellFormed.addPredicate {tag : String} (formed : parts.WellFormed)
    (added : parts.addPredicate tag item = .ok next) : next.WellFormed := by
  unfold NodeParts.addPredicate at added
  split at added
  next => cases added
  next =>
    obtain ⟨predicate, read, rfl⟩ := map_eq_ok_iff.mp added
    refine ⟨fun other same => ?_, formed.children⟩
    cases same
    exact readPredicate_wellFormed read

theorem WellFormed.addDistribution (formed : parts.WellFormed)
    (added : parts.addDistribution item = .ok next) : next.WellFormed := by
  obtain ⟨entry, _, rfl⟩ := map_eq_ok_iff.mp added
  exact ⟨formed.predicate, formed.children⟩

theorem WellFormed.addChild (formed : parts.WellFormed) (child : node.WellFormed) :
    (parts.addChild node).WellFormed := by
  refine ⟨formed.predicate, fun other member => ?_⟩
  rcases List.mem_append.mp member with earlier | last
  · exact formed.children other earlier
  · exact List.mem_singleton.mp last ▸ child

theorem WellFormed.toNode (formed : parts.WellFormed)
    (built : parts.toNode attributes = .ok node) : node.WellFormed := by
  unfold NodeParts.toNode at built
  split at built
  next => cases built
  next predicate found =>
    obtain ⟨recordCount, _, built⟩ := bind_eq_ok_iff.mp built
    cases built
    exact Node.wellFormed_iff.mpr ⟨formed.predicate predicate found, formed.children⟩

end NodeParts

theorem readParts_wellFormed {parts next : NodeParts}
    (each : ∀ item ∈ content, ∀ node, readNode item = .ok node → node.WellFormed)
    (formed : parts.WellFormed) (read : readParts parts content = .ok next) : next.WellFormed := by
  induction content generalizing parts with
  | nil =>
    cases read
    exact formed
  | cons item rest ih =>
    obtain ⟨first, later⟩ := List.forall_mem_cons.mp each
    rw [readParts] at read
    split at read
    next => exact ih later formed read
    next =>
      obtain ⟨child, head, read⟩ := bind_eq_ok_iff.mp read
      exact ih later (formed.addChild (first child head)) read
    next =>
      obtain ⟨between, added, read⟩ := bind_eq_ok_iff.mp read
      exact ih later (formed.addDistribution added) read
    next =>
      split at read
      next =>
        obtain ⟨between, added, read⟩ := bind_eq_ok_iff.mp read
        exact ih later (formed.addPredicate added) read
      next =>
        split at read
        next => exact ih later formed read
        next => cases read

theorem readNode_wellFormed (read : readNode item = .ok node) : node.WellFormed := by
  induction item using Content.induction generalizing node with
  | text | comment | instruction => cases read
  | element name attributes content ih =>
    rw [readNode] at read
    obtain ⟨parts, inner, built⟩ := bind_eq_ok_iff.mp read
    have formed := readParts_wellFormed (fun item member _ => ih item member)
      NodeParts.empty_wellFormed inner
    exact formed.toNode built

theorem readModelParts_wellFormed {parts next : ModelParts}
    (formed : ∀ root, parts.root = some root → root.WellFormed)
    (read : readModelParts parts content = .ok next) :
    ∀ root, next.root = some root → root.WellFormed := by
  induction content generalizing parts with
  | nil =>
    cases read
    exact formed
  | cons item rest ih =>
    rw [readModelParts] at read
    split at read
    next =>
      obtain ⟨fields, _, read⟩ := bind_eq_ok_iff.mp read
      refine ih ?_ read
      exact formed
    next =>
      split at read
      next => cases read
      next =>
        obtain ⟨root, head, read⟩ := bind_eq_ok_iff.mp read
        refine ih (fun other same => ?_) read
        cases same
        exact readNode_wellFormed head
    next => exact ih formed read

theorem readModel_wellFormed {model : Model} (read : readModel item = .ok model) :
    model.root.WellFormed := by
  unfold readModel at read
  -- the strategies are read after the root and do not touch it
  obtain ⟨parts, inner, read⟩ := bind_eq_ok_iff.mp read
  have formed := readModelParts_wellFormed (fun _ absent => by cases absent) inner
  split at read
  next => cases read
  next root found =>
    obtain ⟨split, _, read⟩ := bind_eq_ok_iff.mp read
    obtain ⟨missingValue, _, read⟩ := bind_eq_ok_iff.mp read
    obtain ⟨noTrueChild, _, read⟩ := bind_eq_ok_iff.mp read
    cases read
    exact formed root found

theorem register_wellFormed {registry next : Registry} {number : Nat} {model : Model}
    (formed : registry.WellFormed) (root : model.root.WellFormed)
    (registered : register registry number model = .ok next) : next.WellFormed := by
  simp only [register] at registered
  split at registered
  next => cases registered
  next =>
    cases registered
    intro name other found
    rw [Table.get?_insert] at found
    split at found
    next =>
      cases found
      exact root
    next => exact formed name other found

theorem readModels_wellFormed {registry next : Registry} {number : Nat}
    (formed : registry.WellFormed) (read : readModels registry number content = .ok next) :
    next.WellFormed := by
  induction content generalizing registry number with
  | nil =>
    cases read
    exact formed
  | cons item rest ih =>
    rw [readModels] at read
    split at read
    next =>
      refine ih ?_ read
      exact formed
    next =>
      obtain ⟨model, head, read⟩ := bind_eq_ok_iff.mp read
      obtain ⟨between, registered, read⟩ := bind_eq_ok_iff.mp read
      exact ih (register_wellFormed formed (readModel_wellFormed head) registered) read
    next => exact ih formed read

theorem readDocument_wellFormed {root : Content} {registry : Registry}
    (read : readDocument root = .ok registry) : registry.WellFormed := by
  unfold readDocument at read
  dsimp only at read
  split at read
  next => cases read
  next =>
    obtain ⟨filled, inner, read⟩ := bind_eq_ok_iff.mp read
    split at read
    next => cases read
    next =>
      cases read
      exact readModels_wellFormed (fun _ _ absent => by cases absent) inner

/-- Whatever document is loaded, its trees have well-formed predicates only. -/
theorem load_wellFormed {document : String} {registry : Registry}
    (loaded : load document = .ok registry) : registry.WellFormed := by
  unfold load at loaded
  split at loaded
  next => exact readDocument_wellFormed loaded
  next => cases loaded

end Pmml
end DecisionTree
