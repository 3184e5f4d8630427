import DecisionTree.Proofs.Predicate.Parts
import DecisionTree.Proofs.Table
import DecisionTree.Proofs.Tree.Nodes
import DecisionTree.Registry

/-!
The sets of literals in membership tests, changed wherever they stand in a predicate, a tree, a
model or a registry. Two of these are equal up to their sets if a change makes them equal that
leaves nothing of a set; the change that leaves sets as they are changes nothing.
-/

namespace DecisionTree

variable {change : List String → List String}

namespace Predicate

mutual

def mapSets (change : List String → List String) : Predicate → Predicate
  | .always => .always
  | .never => .never
  | .compare field operator literal => .compare field operator literal
  | .member field operator literals => .member field operator (change literals)
  | .compound operator operands => .compound operator (mapSetsOfAll change operands)

def mapSetsOfAll (change : List String → List String) : List Predicate → List Predicate
  | [] => []
  | operand :: rest => mapSets change operand :: mapSetsOfAll change rest

end

theorem mapSetsOfAll_eq_map (operands : List Predicate) :
    mapSetsOfAll change operands = operands.map (mapSets change) := by
  induction operands with
  | nil => rfl
  | cons operand rest ih => rw [mapSetsOfAll, ih, List.map_cons]

theorem mapSets_id (predicate : Predicate) :
    predicate.mapSets (fun literals => literals) = predicate := by
  induction predicate using Predicate.induction with
  | always | never | compare | member => rfl
  | compound operator operands ih =>
    rw [mapSets, mapSetsOfAll_eq_map, List.map_congr_left ih, List.map_id']

end Predicate

namespace Node

mutual

/-- The tree with the sets of literals in its predicates changed. -/
def mapSets (change : List String → List String) : Node → Node
  | ⟨id, predicate, score, recordCount, distributions, children⟩ =>
    ⟨id, predicate.mapSets change, score, recordCount, distributions,
      mapSetsOfAll change children⟩

/-- Trees with the sets of literals in their predicates changed. -/
def mapSetsOfAll (change : List String → List String) : List Node → List Node
  | [] => []
  | child :: rest => mapSets change child :: mapSetsOfAll change rest

end

theorem mapSetsOfAll_eq_map (children : List Node) :
    mapSetsOfAll change children = children.map (mapSets change) := by
  induction children with
  | nil => rfl
  | cons child rest ih => rw [mapSetsOfAll, ih, List.map_cons]

theorem mapSets_eq (node : Node) :
    node.mapSets change = { node with
      predicate := node.predicate.mapSets change
      children := node.children.map (mapSets change) } := by
  cases node
  rw [mapSets, mapSetsOfAll_eq_map]

theorem mapSets_id (root : Node) : root.mapSets (fun literals => literals) = root := by
  induction root using Node.induction with
  | parent node ih =>
    rw [mapSets_eq, Predicate.mapSets_id, List.map_congr_left ih, List.map_id']
    cases node
    rfl

end Node

/-- The model with the sets of literals in its tree changed. -/
def Model.mapSets (change : List String → List String) (model : Model) : Model :=
  { model with root := model.root.mapSets change }

@[simp] theorem Model.name_mapSets (model : Model) : (model.mapSets change).name = model.name := rfl

theorem Model.mapSets_id : Model.mapSets (fun literals => literals) = id := by
  funext model
  rw [mapSets, Node.mapSets_id]
  rfl

/-- The registry with the sets of literals in its models changed. -/
def Registry.mapSets (change : List String → List String) (registry : Registry) : Registry :=
  { registry with models := registry.models.map (Model.mapSets change) }

/-- The registry with nothing left in the sets of its membership tests. -/
def Registry.withoutSets : Registry → Registry :=
  Registry.mapSets fun _ => []

theorem Registry.mapSets_eq_iff {registry next : Registry} :
    registry.mapSets change = next.mapSets change ↔
      registry.version = next.version ∧ registry.description = next.description ∧
        registry.models.map (Model.mapSets change) = next.models.map (Model.mapSets change) := by
  simp only [mapSets, Registry.mk.injEq]

theorem Registry.mapSets_id : Registry.mapSets (fun literals => literals) = id := by
  funext registry
  rw [mapSets, Model.mapSets_id, Table.map_id]
  rfl

end DecisionTree
