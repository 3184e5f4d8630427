import DecisionTree.Strategy

namespace DecisionTree

inductive OutputForm where
  | text
  | json
  deriving DecidableEq, Repr

def OutputForm.name : OutputForm → String
  | .text => "text"
  | .json => "json"

instance : Vocabulary OutputForm where
  members := [.text, .json]
  spelling := OutputForm.name

structure Settings where
  logLevel : String := "warn"
  output : OutputForm := .text
  /-- patterns of the paths of documents -/
  patterns : List String := []
  strategies : Option Overrides := none
  deriving DecidableEq, Repr

namespace Settings

/-- The names of the settings in the order in which they are declared and written. -/
def names : List String :=
  ["log_level", "output", "models", "strategies"]

/-- The names of overrides in the order in which they are declared and written. -/
def overrideNames : List String :=
  ["missing_value", "no_true_child"]

end Settings
end DecisionTree
