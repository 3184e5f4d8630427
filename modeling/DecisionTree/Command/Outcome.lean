import DecisionTree.Report.Prediction
import DecisionTree.Validation

/-!
What a command leaves behind: an exit code, text on the standard output, and lines on the standard
error. Nothing is written to the standard output by a command that fails, except that the list of
models is written before their problems are known.
-/

namespace DecisionTree.Command

inductive Exit where
  | success
  /-- the record or its scoring failed -/
  | scoring
  /-- the documents, the choice of a model, or its validation failed -/
  | loading
  | settings
  deriving DecidableEq, Repr

def Exit.code : Exit → Nat
  | .success => 0
  | .scoring => 1
  | .loading => 2
  | .settings => 4

structure Outcome where
  exit : Exit
  output : String := ""
  errors : List String := []
  deriving DecidableEq, Repr

/-- A line of output. -/
def line (text : String) : String :=
  text ++ "\n"

/-- The lines that report the findings about a model; none if there are none. -/
def findingLines (name : String) (model : Model) : List String :=
  if model.findings.isEmpty then []
  else
    let level := if model.isUsable then "warnings" else "problems"
    s!"Model '{name}' has {level}:" :: model.findings.map fun finding => "  - " ++ finding.message

end DecisionTree.Command
