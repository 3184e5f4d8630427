import DecisionTree.Pmml.Node
import DecisionTree.Registry
import DecisionTree.Xml.Document

namespace DecisionTree.Pmml

open Xml (Content Attribute)

def readFields : List Content → Except LoadError (List MiningField)
  | [] => .ok []
  | item :: rest =>
    if item.tag? = some "MiningField" then do
      let name ← required "MiningField" "name" (attributesOf item)
      let fields ← readFields rest
      return ⟨name, Xml.valueOf? "usageType" (attributesOf item)⟩ :: fields
    else readFields rest

/-- What an item holds; only elements hold anything. -/
def contentOf : Content → List Content
  | .element _ _ content => content
  | _ => []

/-- What has been read of the content of a tree model. -/
structure ModelParts where
  fields : List MiningField := []
  root : Option Node := none

/-- Adds the schemas and the root node among the content of a tree model, in order. -/
def readModelParts (parts : ModelParts) : List Content → Except LoadError ModelParts
  | [] => .ok parts
  | item :: rest =>
    match item.tag? with
    | some "MiningSchema" => do
      let fields ← readFields (contentOf item)
      readModelParts { parts with fields := parts.fields ++ fields } rest
    | some "Node" =>
      match parts.root with
      | some _ => .error (.unexpectedElement "TreeModel" "second root Node")
      | none => do
        let root ← readNode item
        readModelParts { parts with root := some root } rest
    | _ => readModelParts parts rest

def optionalKeyword {α : Type} (read : String → Except UnknownStrategy α) (key : String)
    (attributes : List Attribute) : Except LoadError (Option α) :=
  optional (fun keyword => (read keyword).toOption) "TreeModel" key attributes

def readModel (item : Content) : Except LoadError Model := do
  let parts ← readModelParts {} (contentOf item)
  match parts.root with
  | none => throw (.missingElement "TreeModel" "Node")
  | some root =>
    let attributes := attributesOf item
    let split ← optionalKeyword Split.read "splitCharacteristic" attributes
    let missingValue ← optionalKeyword MissingValueStrategy.read "missingValueStrategy" attributes
    let noTrueChild ← optionalKeyword NoTrueChildStrategy.read "noTrueChildStrategy" attributes
    return {
      name := Xml.valueOf? "modelName" attributes
      function := Xml.valueOf? "functionName" attributes
      fields := parts.fields
      root
      split := split.getD .multi
      strategies := Overrides.apply ⟨missingValue, noTrueChild⟩ {} }

/-- Registers a model under its name, or under its number among the tree models. -/
def register (registry : Registry) (number : Nat) (model : Model) : Except LoadError Registry :=
  let name := model.name.getD s!"model-{number}"
  if registry.models.contains name then .error (.duplicateModel name)
  else .ok { registry with models := registry.models.insert name model }

/-- Adds the header and the tree models among the content of a document, in order. -/
def readModels (registry : Registry) (number : Nat) : List Content → Except LoadError Registry
  | [] => .ok registry
  | item :: rest =>
    match item.tag? with
    | some "Header" =>
      readModels { registry with description := Xml.valueOf? "description" (attributesOf item) }
        number rest
    | some "TreeModel" => do
      let model ← readModel item
      let next ← register registry number model
      readModels next (number + 1) rest
    | _ => readModels registry number rest

/-- The registry of a document with this root element, which holds at least one tree model. -/
def readDocument (root : Content) : Except LoadError Registry := do
  let tag := root.tag?.getD ""
  if tag ≠ "PMML" then throw (.unexpectedElement "document" tag)
  let version := Xml.valueOf? "version" (attributesOf root)
  let registry ← readModels { version } 0 (contentOf root)
  if registry.models.entries.isEmpty then throw .noTreeModel
  return registry

def load (document : String) : Except LoadError Registry :=
  match Xml.read? document with
  | some root => readDocument root
  | none => .error .malformed

end DecisionTree.Pmml
