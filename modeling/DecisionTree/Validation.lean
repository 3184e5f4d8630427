import DecisionTree.Model

namespace DecisionTree

inductive Violation where
  /-- more than two children under a binary split -/
  | tooManyChildren (count : Nat)
  | negativeCount
  | negativeDistributionCount (index : Nat)
  | confidenceOutside (index : Nat) (confidence : Float)
  | leafWithoutScore
  deriving DecidableEq, Repr

inductive Finding where
  /-- the root's predicate is not the one that always holds -/
  | rootPredicate (label : String)
  /-- a violation at the node with this place in the tree -/
  | violation (place : String) (violation : Violation)
  deriving DecidableEq, Repr

namespace Finding

/-- Warnings do not make a model unusable. -/
def isWarning : Finding → Bool
  | .rootPredicate _ => true
  | .violation .. => false

/-- How the wording of a warning begins. -/
def warningMark : String := "warning:"

def message : Finding → String
  | .rootPredicate label => s!"{warningMark} root node '{label}': predicate is not <True/>"
  | .violation place (.tooManyChildren count) => s!"{place}: {count} children under a binary split"
  | .violation place .negativeCount => s!"{place}.recordCount: must be non-negative"
  | .violation place (.negativeDistributionCount index) =>
    s!"{place}.scoreDistribution[{index}].recordCount: must be non-negative"
  | .violation place (.confidenceOutside index confidence) =>
    s!"{place}.scoreDistribution[{index}].confidence: {Number.display confidence} is outside [0, 1]"
  | .violation place .leafWithoutScore => s!"{place}: leaf has no score"

/-- Whether all findings are warnings, judged by their wording alone. -/
def onlyWarnings (messages : List String) : Bool :=
  messages.all fun message => warningMark.toList.isPrefixOf message.toList

end Finding

/-- A number between 0 and 1; `NaN` is not. -/
def isProbability (x : Float) : Bool :=
  0 ≤ x && x ≤ 1

/-- What is wrong with a distribution entry at some index. -/
def Distribution.violations (distribution : Distribution) (index : Nat) : List Violation :=
  (if distribution.recordCount < 0 then [.negativeDistributionCount index] else []) ++
  match distribution.confidence with
  | some confidence =>
    if isProbability confidence then [] else [.confidenceOutside index confidence]
  | none => []

/-- What is wrong with distribution entries counted from an index. -/
def Distribution.violationsFrom (index : Nat) : List Distribution → List Violation
  | [] => []
  | distribution :: rest =>
    distribution.violations index ++ Distribution.violationsFrom (index + 1) rest

namespace Node

def violations (split : Split) (node : Node) : List Violation :=
  (if split = .binary ∧ 2 < node.children.length then [.tooManyChildren node.children.length]
    else []) ++
  (match node.recordCount with
    | some count => if count < 0 then [.negativeCount] else []
    | none => []) ++
  Distribution.violationsFrom 0 node.distributions ++
  (if node.isLeaf && node.score.isNone then [.leafWithoutScore] else [])

/-- The place of a child: by its id if it has one, else by its index. -/
def placeBelow (place : String) (index : Nat) (child : Node) : String :=
  match child.id with
  | some id => s!"{place}/{id}"
  | none => s!"{place}/{index}"

mutual

/-- The findings of a tree at a place, from its root down. -/
def findings (split : Split) (place : String) : Node → List Finding
  | ⟨id, predicate, score, recordCount, distributions, children⟩ =>
    let node : Node := ⟨id, predicate, score, recordCount, distributions, children⟩
    (node.violations split).map (.violation place) ++ findingsBelow split place 0 children

def findingsBelow (split : Split) (place : String) (index : Nat) : List Node → List Finding
  | [] => []
  | child :: rest =>
    findings split (placeBelow place index child) child ++
      findingsBelow split place (index + 1) rest

end

end Node

namespace Model

/-- All findings about a model; a valid one has none. -/
def findings (model : Model) : List Finding :=
  (if model.root.predicate.isAlways then [] else [.rootPredicate model.root.label]) ++
    model.root.findings model.split "root"

/-- A model without findings beyond warnings may be scored. -/
def isUsable (model : Model) : Bool :=
  model.findings.all Finding.isWarning

end Model
end DecisionTree
