import DecisionTree.Proofs.Predicate.Complement
import DecisionTree.Proofs.Tree.Decided

namespace DecisionTree

namespace Node

variable {split : Split} {record : Record} {strategies others : Strategies}
  {root node first second : Node}

end Node
end DecisionTree
