import DecisionTree.Files.Host
import DecisionTree.Glob.Pattern
import DecisionTree.Pmml.Document

namespace DecisionTree.Command

open Files (FileError)

/-- A document by its path, with its content as far as it can be read. -/
structure Source where
  path : String
  content : Except FileError String

inductive LoadFailure where
  | nothingToLoad
  | badPattern (pattern : String) (error : Glob.PatternError)
  | unreadable (path : String) (error : FileError)
  | document (error : LoadError)
  /-- a document that has a model of a name that is taken -/
  | clash (path name : String)
  | unknownModel (name : String) (available : List String)
  /-- no model is named, and there is not exactly one -/
  | ambiguous (available : List String)
  deriving DecidableEq, Repr

/-- The wording of a failure, with its causes behind it. -/
def LoadFailure.message : LoadFailure → String
  | .nothingToLoad => "No PMML document given and no `models` patterns configured"
  | .badPattern pattern error => s!"Invalid models pattern '{pattern}': {error.message}"
  | .unreadable path error => s!"failed to read {path}: {error.message}: {error.message}"
  | .document error => error.message
  | .clash path name =>
    s!"Failed to merge models from {path}: {(LoadError.duplicateModel name).message}"
  | .unknownModel name available =>
    let names := Text.joinWith ", " available
    s!"No model named '{name}' (available: {names})"
  | .ambiguous available =>
    let names := Text.joinWith ", " available
    s!"{available.length} models loaded; pick one with --model ({names})"

def Source.load (source : Source) : Except LoadFailure Registry :=
  match source.content with
  | .error error => .error (.unreadable source.path error)
  | .ok document => (Pmml.load document).mapError .document

/-- Adds the models of documents to a registry, in order. -/
def loadInto (registry : Registry) : List Source → Except LoadFailure Registry
  | [] => .ok registry
  | source :: rest => do
    let loaded ← source.load
    match registry.merge loaded with
    | (merged, none) => loadInto merged rest
    | (_, some name) => throw (.clash source.path name)

def loadAll (sources : List Source) : Except LoadFailure Registry :=
  loadInto {} sources

/-- The model of a name, or the only model if no name is given. -/
def choose (registry : Registry) (name : Option String) : Except LoadFailure Model :=
  match registry.select? name with
  | some model => .ok model
  | none =>
    match name with
    | some name => .error (.unknownModel name registry.models.names)
    | none => .error (.ambiguous registry.models.names)

end DecisionTree.Command
