import DecisionTree.Files.Host
import DecisionTree.Settings.Filter
import DecisionTree.Settings.Validation
import DecisionTree.Settings.Yaml

namespace DecisionTree

open Files (FileError)

inductive SettingsFailure where
  | noHome
  | unreadable (path : String) (error : FileError)
  | malformed (path : String)
  | invalid (violations : List SettingsViolation)
  | badFilter (filter : String)
  deriving DecidableEq, Repr

def SettingsFailure.lines : SettingsFailure → List String
  | .noHome => ["Config error: Could not determine home directory"]
  | .unreadable path error =>
    [s!"Config error: Failed to read config file at {path}: {error.message}"]
  | .malformed path =>
    [s!"Config error: Failed to parse config: invalid YAML in {path}: these are no settings"]
  | .invalid violations =>
    "Config errors:" :: violations.map fun violation => "  - " ++ violation.message
  | .badFilter filter =>
    [s!"Logging error: invalid log level/filter '{filter}': unable to build EnvFilter"]

namespace Settings

/-- The settings in the content of a file, if there is a file. -/
def ofFile (path : String) (content : Option (Except FileError String)) :
    Except SettingsFailure Settings :=
  match content with
  | none => .ok {}
  | some (.error error) => .error (.unreadable path error)
  | some (.ok document) =>
    match read? document with
    | some settings => .ok settings
    | none => .error (.malformed path)

def checked (verbose : Bool) (settings : Settings) : Except SettingsFailure Settings :=
  if !settings.violations.isEmpty then .error (.invalid settings.violations)
  else if !verbose && !LogFilter.isValid settings.logLevel then
    .error (.badFilter settings.logLevel)
  else .ok settings

/-- The path of the settings file of a home directory. -/
def fileIn (home : String) : String :=
  home ++ "/.config/pmml-tree/config.yaml"

end Settings
end DecisionTree
