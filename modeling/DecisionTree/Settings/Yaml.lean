import DecisionTree.Settings.Slots
import DecisionTree.Yaml.Merge
import DecisionTree.Yaml.Reader

/-!
Settings as YAML documents. Every setting may be left out, and so may the whole document; the
names that are given are declared ones, each once, and keywords are spelled exactly. Null stands
for no patterns and for strategies that are not set, but for no text and no keyword.
-/

namespace DecisionTree

namespace Yaml

/-- The values of a mapping with these declared names, in their order. -/
def slots? (declared : List String) : Yaml → Option (List (Option Yaml))
  | .mapping entries => namedValues? entries >>= Settings.slotsOf? declared
  | _ => none

def nullable {α : Type} (read? : Yaml → Option α) (given : Yaml) : Option (Option α) :=
  if given.isAbsent then some none else (read? given).map some

/-- The values of a sequence; null is an empty one. -/
def items? {α : Type} (read? : Yaml → Option α) (given : Yaml) : Option (List α) :=
  match given with
  | .sequence items => items.mapM read?
  | other => if other.isNull then some [] else none

/-- Whether a scalar with this tag may be a keyword of a type: a tag of a document's own has to be
the name of the type. -/
def allowsKeyword (typeName : String) (tag : Option String) : Bool :=
  match tag >>= typeName? with
  | some name => name == typeName
  | none => true

/-- A keyword of a type in its exact spelling, as a scalar or as the only key of a mapping to
null. -/
def keyword? {α : Type} [Vocabulary α] (typeName : String) : Yaml → Option α
  | .mapping [(key, value)] => if value.isNull then key.text? >>= Vocabulary.named? else none
  | .scalar _ tag content =>
    if allowsKeyword typeName tag then Vocabulary.named? content else none
  | _ => none

end Yaml

def Overrides.ofYaml? (yaml : Yaml) : Option Overrides := do
  match ← yaml.slots? Settings.overrideNames with
  | [missingValue, noTrueChild] =>
    let missingValue ← Settings.orDefault none
      (Yaml.nullable (Yaml.keyword? "MissingValueStrategy")) missingValue
    let noTrueChild ← Settings.orDefault none
      (Yaml.nullable (Yaml.keyword? "NoTrueChildStrategy")) noTrueChild
    return ⟨missingValue, noTrueChild⟩
  | _ => none

namespace Settings

def ofMapping? (yaml : Yaml) : Option Settings := do
  match ← yaml.slots? names with
  | [logLevel, output, patterns, strategies] =>
    let logLevel ← Settings.orDefault "warn" Yaml.text? logLevel
    let output ← Settings.orDefault .text (Yaml.keyword? "OutputFormat") output
    let patterns ← Settings.orDefault [] (Yaml.items? Yaml.text?) patterns
    let strategies ← Settings.orDefault none (Yaml.nullable Overrides.ofYaml?) strategies
    return ⟨logLevel, output, patterns, strategies⟩
  | _ => none

/-- Settings from a YAML document; null is the default settings. -/
def ofYaml? (yaml : Yaml) : Option Settings :=
  if yaml.isNull then some {} else ofMapping? yaml

def read? (document : String) : Option Settings :=
  Yaml.read? document >>= ofYaml?

/-- The document that a new settings file has: the default settings that are not optional. -/
def defaultDocument : String :=
  "log_level: warn\noutput: text\nmodels: []\n"

end Settings
end DecisionTree
