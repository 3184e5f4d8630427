import DecisionTree.Json.Writer
import DecisionTree.Report.Style
import DecisionTree.Text.Split
import DecisionTree.Tree.Scoring

namespace DecisionTree.Report

/-- The terminal that a report is for. Without a width nothing is cut. -/
structure Terminal where
  colours : Bool := false
  width : Option Nat := none
  deriving DecidableEq, Repr

/-- A text of at most `width` characters: a longer one is cut, and three of the characters become
dots if there is room for more than those. -/
def truncate (width : Nat) (text : String) : String :=
  let cs := text.toList
  if cs.length ≤ width then text
  else if 3 < width then String.ofList (cs.take (width - 3)) ++ "..."
  else String.ofList (cs.take width)

/-- A node on the path: its id with its score, or its label if it lacks one of them. -/
def step (node : Node) : String :=
  match node.id, node.score with
  | some id, some score => s!"{id} ({score})"
  | _, _ => node.label

/-- All nodes on the path. -/
def steps (path : List Node) : String :=
  Text.joinWith " -> " (path.map step)

def pathHeadingWidth : Nat := 6

/-- The path within the width that its heading leaves. -/
def fittedPath (terminal : Terminal) (path : List Node) : String :=
  match terminal.width with
  | some width => truncate (width - pathHeadingWidth) (steps path)
  | none => steps path

def text (terminal : Terminal) (prediction : Prediction) : String :=
  let confidence := Number.fixed 4 prediction.confidence
  let path := fittedPath terminal prediction.path
  match prediction.value, terminal.colours with
  | some value, true =>
    let value := Style.green.wrap (Style.bold.wrap value)
    s!"value: {value}\nconfidence: {Style.cyan.wrap confidence}\npath: {Style.dim.wrap path}"
  | some value, false => s!"value: {value}\nconfidence: {confidence}\npath: {path}"
  | none, true =>
    let value := Style.yellow.wrap "<none>"
    s!"value: {value}\nconfidence: {Style.cyan.wrap confidence}\npath: {Style.dim.wrap path}"
  | none, false => s!"value: <none>\nconfidence: {confidence}\npath: {path}"

def stepJson (node : Node) : Json :=
  .object [("id", Json.ofText? node.id), ("score", Json.ofText? node.score),
    ("record_count", Json.ofFloat? node.recordCount)]

def json (prediction : Prediction) : Json :=
  .object [("value", Json.ofText? prediction.value),
    ("confidence", Json.ofFloat prediction.confidence),
    ("path", .array (prediction.path.map stepJson))]

end DecisionTree.Report
