import DecisionTree.Predicate.Error

namespace DecisionTree

inductive LoadError where
  /-- not a well-formed XML document -/
  | malformed
  | missingAttribute (element key : String)
  /-- an attribute whose value is no number or names no strategy -/
  | invalidAttribute (element key value : String)
  | missingPredicate (element : String)
  | missingElement (parent element : String)
  | unexpectedElement (parent found : String)
  | duplicateModel (name : String)
  | predicate (error : EvaluationError)
  | noTreeModel
  deriving DecidableEq, Repr

def LoadError.message : LoadError → String
  | .malformed => "invalid XML: the document is not well formed"
  | .missingAttribute element key => s!"attribute '{key}' is required in '{element}'"
  | .invalidAttribute element key value =>
    s!"attribute '{key}' in '{element}' has invalid value '{value}'"
  | .missingPredicate element => s!"'{element}' has no predicate"
  | .missingElement parent element => s!"'{parent}' requires a '{element}' element"
  | .unexpectedElement parent found => s!"unexpected element '{found}' in '{parent}'"
  | .duplicateModel name => s!"model '{name}' is defined more than once"
  | .predicate error => error.message
  | .noTreeModel => "document contains no TreeModel"

end DecisionTree
