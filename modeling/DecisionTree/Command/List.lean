import DecisionTree.Command.Loading
import DecisionTree.Command.Outcome
import DecisionTree.Report.Summary

namespace DecisionTree.Command

/-- The summaries of all models with an empty line between them. -/
def summaries (terminal : Report.Terminal) (registry : Registry) : String :=
  Text.joinWith "\n\n" (registry.models.entries.map fun (name, model) =>
    Report.summary terminal.colours name model)

def allUsable (registry : Registry) : Bool :=
  registry.models.entries.all fun entry => entry.2.isUsable

def listModels (terminal : Report.Terminal) (registry : Registry) : Outcome where
  exit := if allUsable registry then .success else .loading
  output := line (summaries terminal registry)
  errors := registry.models.entries.flatMap fun (name, model) => findingLines name model

def list (terminal : Report.Terminal) (sources : List Source) : Outcome :=
  match loadAll sources with
  | .error failure => ⟨.loading, "", ["Load error: " ++ failure.message]⟩
  | .ok registry => listModels terminal registry

end DecisionTree.Command
