import DecisionTree.Model
import DecisionTree.Report.Style
import DecisionTree.Text.Split

namespace DecisionTree.Report

/-- A declared field with its usage, unless that is the common one. -/
def fieldUsage (field : MiningField) : String :=
  match field.usage with
  | some usage => if usage = "active" then field.name else s!"{field.name} ({usage})"
  | none => field.name

/-- The declared fields, or a dash if that is nothing. -/
def fieldList (fields : List MiningField) : String :=
  let listed := Text.joinWith ", " (fields.map fieldUsage)
  if listed.isEmpty then "-" else listed

/-- The summary of a model under the name it is registered with. -/
def summary (colours : Bool) (name : String) (model : Model) : String :=
  let function := model.function.getD "-"
  Text.joinWith "\n  "
    [paint colours .bold name,
      s!"Function: {function}",
      s!"Split: {model.split.name}",
      s!"Missing value strategy: {model.strategies.missingValue.name}",
      s!"No true child strategy: {model.strategies.noTrueChild.name}",
      s!"Nodes: {model.root.size} (depth {model.root.depth})",
      s!"Fields: {fieldList model.fields}"]

end DecisionTree.Report
