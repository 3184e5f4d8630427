import DecisionTree.Command.Arguments
import DecisionTree.Command.Help
import DecisionTree.Strategy

/-!
What a command line asks for: to run a command, or to tell about one. The settings file and verbose
logging can be named before the command or behind it; behind it wins. No switch with a single value
and no flag is repeated on one side, a path is never empty, and a strategy is one that there is.
What stands before a switch that asks to be told something has to be right all the same, and what
stands behind it is not read.
-/

namespace DecisionTree.Command

structure ScoreRequest where
  document : Option String := none
  model : Option String := none
  assignments : List String := []
  recordFile : Option String := none
  asJson : Bool := false
  overrides : Overrides := {}
  deriving DecidableEq, Repr

inductive Action where
  | score (request : ScoreRequest)
  | list (documents : List String)
  | init (replace : Bool)
  deriving DecidableEq, Repr

structure Invocation where
  action : Action
  settingsFile : Option String := none
  verbose : Bool := false
  deriving DecidableEq, Repr

inductive Request where
  | tell (text : String)
  | run (invocation : Invocation)
  deriving DecidableEq, Repr

def commonSwitches : List Switch :=
  [⟨"verbose", some 'v', .flag⟩, ⟨"config", some 'c', .value⟩, ⟨"help", some 'h', .last⟩]

def programSwitches : List Switch :=
  commonSwitches ++ [⟨"version", some 'V', .last⟩]

def scoreSwitches : List Switch :=
  commonSwitches ++
    [⟨"model", some 'm', .value⟩, ⟨"field", some 'f', .value⟩, ⟨"record", none, .value⟩,
      ⟨"json", none, .flag⟩, ⟨"missing-value-strategy", none, .value⟩,
      ⟨"no-true-child-strategy", none, .value⟩]

def initSwitches : List Switch :=
  commonSwitches ++ [⟨"force", none, .flag⟩]

def path? (name : String) (arguments : List Argument) : Option (Option String) := do
  let path ← single? name arguments
  if path = some "" then none else return path

def strategy? {α : Type} (read : String → Except UnknownStrategy α) (name : String)
    (arguments : List Argument) : Option (Option α) := do
  match ← single? name arguments with
  | none => return none
  | some keyword => (read keyword).toOption.map some

def documents? (arguments : List Argument) : Option (List String) :=
  let documents := words arguments
  if documents.contains "" then none else some documents

/-- A request to score from its arguments; at most one document is named. -/
def ScoreRequest.ofArguments? (arguments : List Argument) : Option ScoreRequest := do
  let document ← match ← documents? arguments with
    | [] => some none
    | [path] => some (some path)
    | _ => none
  let model ← single? "model" arguments
  let recordFile ← path? "record" arguments
  let asJson ← flag? "json" arguments
  let missingValue ← strategy? MissingValueStrategy.read "missing-value-strategy" arguments
  let noTrueChild ← strategy? NoTrueChildStrategy.read "no-true-child-strategy" arguments
  return ⟨document, model, values "field" arguments, recordFile, asJson,
    ⟨missingValue, noTrueChild⟩⟩

/-- An action from its name and its arguments, together with these. -/
def Action.read? (name : String) (arguments : List String) : Option (Action × List Argument) :=
  match name with
  | "score" => do
    let given ← readAll? scoreSwitches arguments
    let request ← ScoreRequest.ofArguments? given
    return (.score request, given)
  | "list" => do
    let given ← readAll? commonSwitches arguments
    let documents ← documents? given
    return (.list documents, given)
  | "init" => do
    let given ← readAll? initSwitches arguments
    let replace ← flag? "force" given
    if (words given).isEmpty then return (.init replace, given) else none
  | _ => none

def Action.help : Action → String
  | .score _ => Help.score
  | .list _ => Help.list
  | .init _ => Help.init

/-- Whether what a switch with this name asks for is to be told. -/
def asks (name : String) (arguments : List Argument) : Bool :=
  arguments.contains (.switch name)

/-- What a command line asks for; none if that is nothing that there is. -/
def Request.read? (arguments : List String) : Option Request := do
  let (before, command) ← readUpToWord? programSwitches arguments
  let outerFile ← path? "config" before
  let outerVerbose ← flag? "verbose" before
  match command with
  | none => return .tell (if asks "version" before then Help.version else Help.program)
  | some ("help", topic) => (Help.about? topic).map .tell
  | some (name, rest) => do
    let (action, behind) ← Action.read? name rest
    let innerFile ← path? "config" behind
    let innerVerbose ← flag? "verbose" behind
    if asks "help" behind then return .tell action.help
    else return .run ⟨action, innerFile.or outerFile, outerVerbose || innerVerbose⟩

end DecisionTree.Command
