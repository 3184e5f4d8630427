import DecisionTree.Predicate.Operator

namespace DecisionTree

inductive Predicate where
  | always
  | never
  /-- a field compared with a literal; presence tests have none -/
  | compare (field : String) (operator : Comparison) (literal : Option String)
  /-- a field looked up in a set of literals -/
  | member (field : String) (operator : Membership) (literals : List String)
  | compound (operator : Connective) (operands : List Predicate)

namespace Predicate

/-- Adds a name at the end unless it is already there. -/
def addName (names : List String) (name : String) : List String :=
  if names.contains name then names else names ++ [name]

mutual

def addFields (names : List String) : Predicate → List String
  | .always => names
  | .never => names
  | .compare field _ _ => addName names field
  | .member field _ _ => addName names field
  | .compound _ operands => addFieldsOfAll names operands

/-- Adds the fields that predicates name, from left to right. -/
def addFieldsOfAll (names : List String) : List Predicate → List String
  | [] => names
  | operand :: rest => addFieldsOfAll (addFields names operand) rest

end

/-- The fields that the predicate names, each once, in the order of their first use. -/
def fields (predicate : Predicate) : List String :=
  addFields [] predicate

def isAlways : Predicate → Bool
  | .always => true
  | _ => false

end Predicate
end DecisionTree
