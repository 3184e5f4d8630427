import DecisionTree.Glob.Pattern
import DecisionTree.Settings.Basic
import DecisionTree.Text.Blank

namespace DecisionTree

inductive SettingsViolation where
  | emptyLogLevel
  | invalidPattern (index : Nat) (pattern : String) (error : Glob.PatternError)
  | unsupportedStrategy (strategy : MissingValueStrategy)
  deriving DecidableEq, Repr

def SettingsViolation.message : SettingsViolation → String
  | .emptyLogLevel => "log_level: must not be empty"
  | .invalidPattern index pattern error =>
    s!"models[{index}]: invalid pattern '{pattern}' - {error.message}"
  | .unsupportedStrategy strategy =>
    s!"strategies.missing_value: '{strategy.name}' is not supported " ++
      "(use nullPrediction or lastPrediction)"

namespace Settings

/-- The violations among patterns counted from an index. -/
def patternViolations (index : Nat) : List String → List SettingsViolation
  | [] => []
  | pattern :: rest =>
    (match Glob.read pattern with
      | .ok _ => []
      | .error error => [.invalidPattern index pattern error]) ++
    patternViolations (index + 1) rest

def strategyViolations (overrides : Overrides) : List SettingsViolation :=
  match overrides.missingValue with
  | some strategy => if strategy.isSupported then [] else [.unsupportedStrategy strategy]
  | none => []

/-- All violations of settings; valid ones have none. -/
def violations (settings : Settings) : List SettingsViolation :=
  (if (Text.trim settings.logLevel).isEmpty then [.emptyLogLevel] else []) ++
    patternViolations 0 settings.patterns ++
    strategyViolations (settings.strategies.getD {})

end Settings
end DecisionTree
