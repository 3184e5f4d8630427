import DecisionTree.Tree.Node

namespace DecisionTree.Node

@[elab_as_elim]
theorem induction {motive : Node → Prop}
    (parent : ∀ node : Node, (∀ child ∈ node.children, motive child) → motive node)
    (root : Node) : motive root :=
  @Node.rec motive (fun children => ∀ child ∈ children, motive child)
    (fun _ _ _ _ _ _ below => parent _ below) (fun _ absent => nomatch absent)
    (fun _ _ head tail => List.forall_mem_cons.mpr ⟨head, tail⟩) root

mutual

/-- The node itself and all nodes below it, in the order of the document. -/
def nodes : Node → List Node
  | ⟨id, predicate, score, recordCount, distributions, children⟩ =>
    ⟨id, predicate, score, recordCount, distributions, children⟩ :: nodesOfAll children

/-- The nodes of several trees, one tree after the other. -/
def nodesOfAll : List Node → List Node
  | [] => []
  | child :: rest => nodes child ++ nodesOfAll rest

end

/-- The nodes below a node. -/
def descendants (node : Node) : List Node :=
  nodesOfAll node.children

variable {node child other : Node}

theorem nodes_eq_cons (node : Node) : node.nodes = node :: node.descendants := by
  cases node
  rfl

theorem descendants_subset_nodes (node : Node) : node.descendants ⊆ node.nodes := by
  intro other below
  rw [nodes_eq_cons]
  exact List.mem_cons_of_mem _ below

theorem mem_nodesOfAll {children : List Node} :
    other ∈ nodesOfAll children ↔ ∃ child ∈ children, other ∈ child.nodes := by
  induction children with
  | nil => simp [nodesOfAll]
  | cons child rest ih => simp [nodesOfAll, ih]

theorem self_mem_nodes (node : Node) : node ∈ node.nodes := by
  rw [nodes_eq_cons]
  exact List.mem_cons_self

theorem nodes_subset_descendants (below : child ∈ node.children) :
    child.nodes ⊆ node.descendants := fun _ member =>
  mem_nodesOfAll.mpr ⟨child, below, member⟩

theorem nodes_subset_nodes (below : child ∈ node.children) : child.nodes ⊆ node.nodes := by
  intro other member
  exact descendants_subset_nodes node (nodes_subset_descendants below member)

theorem child_mem_descendants (below : child ∈ node.children) : child ∈ node.descendants :=
  nodes_subset_descendants below (self_mem_nodes child)

theorem descendants_subset_descendants (below : child ∈ node.children) :
    child.descendants ⊆ node.descendants := by
  intro other member
  exact nodes_subset_descendants below (descendants_subset_nodes child member)

/-- The children of every node of a tree are below the root. -/
theorem mem_descendants_of_mem_nodes {root : Node} (inside : node ∈ root.nodes)
    (below : child ∈ node.children) : child ∈ root.descendants := by
  induction root using Node.induction with
  | parent root ih =>
    rw [nodes_eq_cons] at inside
    rcases List.mem_cons.mp inside with rfl | deeper
    · exact child_mem_descendants below
    · obtain ⟨top, first, under⟩ := mem_nodesOfAll.mp deeper
      exact descendants_subset_descendants first (ih top first under)

/-- Whether to go out: it is first the rain that counts, then the wind. -/
def outing : Node where
  predicate := .always
  score := some "go"
  children := [
    { predicate := .compare "outlook" .equal (some "rain")
      score := some "stay"
      children := [
        { predicate := .compare "wind" .equal (some "strong"), score := some "stay" },
        { predicate := .compare "wind" .notEqual (some "strong"), score := some "go" }] },
    { predicate := .compare "outlook" .notEqual (some "rain"), score := some "go" }]

end DecisionTree.Node
