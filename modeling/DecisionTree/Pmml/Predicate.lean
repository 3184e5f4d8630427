import DecisionTree.Pmml.Array
import DecisionTree.Pmml.Error
import DecisionTree.Predicate.Basic
import DecisionTree.Xml.Content

namespace DecisionTree

/-- The name of an element without its qualifier; other content has none. -/
def Xml.Content.tag? : Xml.Content → Option String
  | .element name _ _ => some name.localName
  | _ => none

namespace Pmml

open Xml (Content Attribute)

def predicateTags : List String :=
  ["True", "False", "SimplePredicate", "SimpleSetPredicate", "CompoundPredicate"]

def required (element key : String) (attributes : List Attribute) : Except LoadError String :=
  match Xml.valueOf? key attributes with
  | some value => .ok value
  | none => .error (.missingAttribute element key)

def readOperator {α : Type} (read : String → Except EvaluationError α) (keyword : String) :
    Except LoadError α :=
  (read keyword).mapError LoadError.predicate

/-- The content of the first array. -/
def arrayOf? (content : List Content) : Option (List Content) :=
  content.findSome? fun
    | .element name _ inner => if name.localName = "Array" then some inner else none
    | _ => none

def readComparison (attributes : List Attribute) : Except LoadError Predicate := do
  let element := "SimplePredicate"
  let field ← required element "field" attributes
  let keyword ← required element "operator" attributes
  let operator ← readOperator Comparison.read keyword
  if operator.requiresLiteral then
    let literal ← required element "value" attributes
    return .compare field operator (some literal)
  else return .compare field operator none

/-- A comparison of a field with an array of literals. -/
def readMembership (attributes : List Attribute) (content : List Content) :
    Except LoadError Predicate := do
  let element := "SimpleSetPredicate"
  let field ← required element "field" attributes
  let keyword ← required element "booleanOperator" attributes
  let operator ← readOperator Membership.read keyword
  match arrayOf? content with
  | none => throw (.missingElement element "Array")
  | some inner =>
    return .member field operator (arrayValues ((Xml.leadingText? inner).getD ""))

def readConnective (attributes : List Attribute) : Except LoadError Connective := do
  let keyword ← required "CompoundPredicate" "booleanOperator" attributes
  readOperator Connective.read keyword

/-- A compound of operands, of which there has to be one. -/
def compoundOf (operator : Connective) (operands : List Predicate) : Except LoadError Predicate :=
  if operands.isEmpty then .error (.missingPredicate "CompoundPredicate")
  else .ok (.compound operator operands)

mutual

def readPredicate : Content → Except LoadError Predicate
  | .element name attributes content =>
    match name.localName with
    | "True" => .ok .always
    | "False" => .ok .never
    | "SimplePredicate" => readComparison attributes
    | "SimpleSetPredicate" => readMembership attributes content
    | "CompoundPredicate" => do
      let operator ← readConnective attributes
      let operands ← readOperands content
      compoundOf operator operands
    | other => .error (.unexpectedElement "predicate" other)
  | _ => .error (.missingPredicate "predicate")

/-- The predicates among content; every element but an extension has to be one. -/
def readOperands : List Content → Except LoadError (List Predicate)
  | [] => .ok []
  | item :: rest =>
    match item.tag? with
    | none => readOperands rest
    | some "Extension" => readOperands rest
    | some _ => do
      let operand ← readPredicate item
      let operands ← readOperands rest
      return operand :: operands

end

end Pmml
end DecisionTree
