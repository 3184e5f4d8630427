import DecisionTree.Command.Loading
import DecisionTree.Command.Outcome
import DecisionTree.Command.RecordInput

namespace DecisionTree.Command

structure ScoreInput where
  model : Option String := none
  recordFile : Option RecordFile := none
  assignments : List String := []
  overrides : Overrides := {}
  asJson : Bool := false

def rendered (terminal : Report.Terminal) (asJson : Bool) (prediction : Prediction) : String :=
  line (if asJson then (Report.json prediction).text else Report.text terminal prediction)

/-- The prediction of a model for the record of the input, with the lines that report findings. -/
def scoreModel (terminal : Report.Terminal) (input : ScoreInput) (model : Model) : Outcome :=
  let findings := findingLines model.displayName model
  if !model.isUsable then ⟨.loading, "", findings⟩
  else
    match buildRecord input.recordFile input.assignments with
    | .error failure => ⟨.scoring, "", findings ++ ["Record error: " ++ failure.message]⟩
    | .ok record =>
      match model.scoreWith (input.overrides.apply model.strategies) record with
      | .error error => ⟨.scoring, "", findings ++ ["Scoring error: " ++ error.message]⟩
      | .ok prediction => ⟨.success, rendered terminal input.asJson prediction, findings⟩

def score (terminal : Report.Terminal) (input : ScoreInput) (sources : List Source) : Outcome :=
  match loadAll sources >>= (choose · input.model) with
  | .error failure => ⟨.loading, "", ["Load error: " ++ failure.message]⟩
  | .ok model => scoreModel terminal input model

end DecisionTree.Command
