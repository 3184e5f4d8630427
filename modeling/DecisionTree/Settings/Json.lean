import DecisionTree.Json.Basic
import DecisionTree.Settings.Slots

/-!
Settings as JSON values. A structure is an object with some of its declared names, each once, or
an array of values in the order of the declaration; what is left out has its default. Keywords are
spelled exactly. Writing lists every name in the order of the declaration, except optional ones
that are not set.
-/

namespace DecisionTree

namespace Json

/-- The values of a structure with these declared names, in their order: from an object by name,
from an array by place, where there may be fewer of them but not more. -/
def slots? (declared : List String) : Json → Option (List (Option Json))
  | .object members => Settings.slotsOf? declared members
  | .array items =>
    if items.length ≤ declared.length then
      some (items.map some ++ List.replicate (declared.length - items.length) none)
    else none
  | _ => none

def nullable {α : Type} (read? : Json → Option α) : Json → Option (Option α)
  | .null => some none
  | given => (read? given).map some

def text? : Json → Option String
  | .string content => some content
  | _ => none

/-- The values of an array. -/
def items? {α : Type} (read? : Json → Option α) : Json → Option (List α)
  | .array items => items.mapM read?
  | _ => none

/-- A keyword in its exact spelling, as a string or as the only name of an object whose value is
`null`. -/
def keyword? {α : Type} [Vocabulary α] : Json → Option α
  | .string spelling => Vocabulary.named? spelling
  | .object [(spelling, .null)] => Vocabulary.named? spelling
  | _ => none

def ofKeyword {α : Type} [Vocabulary α] (member : α) : Json :=
  .string (Vocabulary.spelling member)

def optionalMember {α : Type} (name : String) (write : α → Json) :
    Option α → List (String × Json)
  | some value => [(name, write value)]
  | none => []

end Json

namespace Strategies

def ofJson? (json : Json) : Option Strategies := do
  match ← json.slots? Settings.overrideNames with
  | [missingValue, noTrueChild] =>
    let missingValue ← Settings.orDefault .none Json.keyword? missingValue
    let noTrueChild ← Settings.orDefault .returnNullPrediction Json.keyword? noTrueChild
    return ⟨missingValue, noTrueChild⟩
  | _ => none

def toJson (strategies : Strategies) : Json :=
  .object [("missing_value", Json.ofKeyword strategies.missingValue),
    ("no_true_child", Json.ofKeyword strategies.noTrueChild)]

end Strategies

namespace Overrides

def ofJson? (json : Json) : Option Overrides := do
  match ← json.slots? Settings.overrideNames with
  | [missingValue, noTrueChild] =>
    let missingValue ← Settings.orDefault none (Json.nullable Json.keyword?) missingValue
    let noTrueChild ← Settings.orDefault none (Json.nullable Json.keyword?) noTrueChild
    return ⟨missingValue, noTrueChild⟩
  | _ => none

/-- Overrides as a JSON object of those that are set. -/
def toJson (overrides : Overrides) : Json :=
  .object (Json.optionalMember "missing_value" Json.ofKeyword overrides.missingValue ++
    Json.optionalMember "no_true_child" Json.ofKeyword overrides.noTrueChild)

end Overrides

namespace Settings

def ofJson? (json : Json) : Option Settings := do
  match ← json.slots? names with
  | [logLevel, output, patterns, strategies] =>
    let logLevel ← Settings.orDefault "warn" Json.text? logLevel
    let output ← Settings.orDefault .text Json.keyword? output
    let patterns ← Settings.orDefault [] (Json.items? Json.text?) patterns
    let strategies ← Settings.orDefault none (Json.nullable Overrides.ofJson?) strategies
    return ⟨logLevel, output, patterns, strategies⟩
  | _ => none

def toJson (settings : Settings) : Json :=
  .object ([("log_level", .string settings.logLevel),
    ("output", Json.ofKeyword settings.output),
    ("models", .array (settings.patterns.map .string))] ++
    Json.optionalMember "strategies" Overrides.toJson settings.strategies)

end Settings
end DecisionTree
