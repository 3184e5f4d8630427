import DecisionTree.Number
import DecisionTree.Pmml.Predicate
import DecisionTree.Tree.Node

/-!
Nodes as elements. The predicate, the distribution entries and the child nodes of a node may stand
in any order among each other; extensions, partitions and embedded models are skipped, and any
other element is an error. The children of an element are read before its own record count.
-/

namespace DecisionTree.Pmml

open Xml (Content Attribute)

/-- An attribute that may be left out, read without outer blanks. -/
def optional {α : Type} (read? : String → Option α) (element key : String)
    (attributes : List Attribute) : Except LoadError (Option α) :=
  match Xml.valueOf? key attributes with
  | none => .ok none
  | some written =>
    match read? (Text.trim written) with
    | some value => .ok (some value)
    | none => .error (.invalidAttribute element key written)

def optionalNumber : String → String → List Attribute → Except LoadError (Option Float) :=
  optional Number.read?

/-- A distribution entry. A probability counts as confidence where there is none. -/
def readDistribution (attributes : List Attribute) : Except LoadError Distribution := do
  let element := "ScoreDistribution"
  match ← optionalNumber element "recordCount" attributes with
  | none => throw (.missingAttribute element "recordCount")
  | some recordCount =>
    let stated ← optionalNumber element "confidence" attributes
    let confidence ←
      match stated with
      | some confidence => pure (some confidence)
      | none => optionalNumber element "probability" attributes
    let value ← required element "value" attributes
    return ⟨value, recordCount, confidence⟩

/-- The attributes of an item of content; what is no element has none. -/
def attributesOf : Content → List Attribute
  | .element _ attributes _ => attributes
  | _ => []

structure NodeParts where
  predicate : Option Predicate := none
  distributions : List Distribution := []
  children : List Node := []

namespace NodeParts

/-- Adds the predicate, of which there may be one. -/
def addPredicate (parts : NodeParts) (tag : String) (item : Content) :
    Except LoadError NodeParts :=
  match parts.predicate with
  | some _ => .error (.unexpectedElement "Node" s!"second predicate {tag}")
  | none => (readPredicate item).map fun predicate => { parts with predicate := some predicate }

def addDistribution (parts : NodeParts) (item : Content) : Except LoadError NodeParts :=
  (readDistribution (attributesOf item)).map fun entry =>
    { parts with distributions := parts.distributions ++ [entry] }

def addChild (parts : NodeParts) (child : Node) : NodeParts :=
  { parts with children := parts.children ++ [child] }

def toNode (parts : NodeParts) (attributes : List Attribute) : Except LoadError Node :=
  match parts.predicate with
  | none => .error (.missingPredicate "Node")
  | some predicate => do
    let recordCount ← optionalNumber "Node" "recordCount" attributes
    return {
      id := Xml.valueOf? "id" attributes
      predicate
      score := Xml.valueOf? "score" attributes
      recordCount
      distributions := parts.distributions
      children := parts.children }

end NodeParts

/-- Elements of a node that say nothing about its score. -/
def skippedTags : List String :=
  ["Extension", "Partition", "Regression", "DecisionTree"]

mutual

def readNode : Content → Except LoadError Node
  | .element _ attributes content => do
    let parts ← readParts {} content
    parts.toNode attributes
  | _ => .error (.missingPredicate "Node")

/-- Adds the parts of a node among content, in order. -/
def readParts (parts : NodeParts) : List Content → Except LoadError NodeParts
  | [] => .ok parts
  | item :: rest =>
    match item.tag? with
    | none => readParts parts rest
    | some "Node" => do
      let child ← readNode item
      readParts (parts.addChild child) rest
    | some "ScoreDistribution" => do
      let next ← parts.addDistribution item
      readParts next rest
    | some tag =>
      if predicateTags.contains tag then do
        let next ← parts.addPredicate tag item
        readParts next rest
      else if skippedTags.contains tag then readParts parts rest
      else .error (.unexpectedElement "Node" tag)

end

end DecisionTree.Pmml
