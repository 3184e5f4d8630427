import DecisionTree.Predicate.Basic

namespace DecisionTree

structure Distribution where
  value : String
  recordCount : Float
  confidence : Option Float := none

structure Node where
  id : Option String := none
  predicate : Predicate
  score : Option String := none
  recordCount : Option Float := none
  distributions : List Distribution := []
  children : List Node := []

namespace Node

/-- A node without children. -/
def isLeaf (node : Node) : Bool :=
  node.children.isEmpty

/-- How a node is called in messages and paths: by its id, else by its score. -/
def label (node : Node) : String :=
  match node.id, node.score with
  | some id, _ => id
  | none, some score => score
  | none, none => "<anonymous>"

/-- The sum of record counts from left to right. -/
def totalCount (distributions : List Distribution) : Float :=
  distributions.foldl (fun total distribution => total + distribution.recordCount) 0

/-- Confidence of a value at a node: that of its first distribution entry if it states one, else
the entry's share of the total count. Without an entry, or without a positive total, it is 0. -/
def confidenceFor (node : Node) (value : String) : Float :=
  match node.distributions.find? (·.value == value) with
  | none => 0
  | some entry =>
    match entry.confidence with
    | some confidence => confidence
    | none =>
      let total := totalCount node.distributions
      if total > 0 then entry.recordCount / total else 0

mutual

/-- Edges on the longest way down. -/
def depth : Node → Nat
  | ⟨_, _, _, _, _, children⟩ => depthOfAll children

/-- The greatest depth below a parent of these nodes; 0 without any. -/
def depthOfAll : List Node → Nat
  | [] => 0
  | child :: rest => max (depth child + 1) (depthOfAll rest)

end

theorem depth_lt_depthOfAll {child : Node} {children : List Node} (below : child ∈ children) :
    child.depth < depthOfAll children := by
  induction children with
  | nil => cases below
  | cons head rest ih =>
    rw [depthOfAll]
    rcases List.mem_cons.mp below with rfl | later
    · omega
    · have deeper := ih later
      omega

/-- A child is less deep than its parent. -/
theorem depth_lt_depth {node child : Node} (below : child ∈ node.children) :
    child.depth < node.depth := by
  cases node
  exact depth_lt_depthOfAll below

mutual

def size : Node → Nat
  | ⟨_, _, _, _, _, children⟩ => 1 + sizeOfAll children

def sizeOfAll : List Node → Nat
  | [] => 0
  | child :: rest => size child + sizeOfAll rest

end

end Node
end DecisionTree
