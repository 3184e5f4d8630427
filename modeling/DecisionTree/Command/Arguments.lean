import DecisionTree.Text.Split

/-!
Arguments of a command line. A switch is given by its long name behind two hyphens or by its letter
behind one; letters may stand together. The value of a switch stands behind an equals sign, directly
behind its letter, or in the next argument, which then may not begin with a hyphen. Two hyphens
alone end the switches; all other arguments are words. Behind some switches nothing more is read.
-/

namespace DecisionTree.Command

inductive SwitchKind where
  | flag
  | value
  /-- a flag behind which nothing is read -/
  | last
  deriving DecidableEq, Repr

structure Switch where
  name : String
  letter : Option Char := none
  kind : SwitchKind := .flag
  deriving DecidableEq, Repr

inductive Argument where
  | switch (name : String)
  | option (name value : String)
  | word (text : String)
  deriving DecidableEq, Repr

/-- What one argument of a command line says by itself. -/
inductive Reading where
  | complete (arguments : List Argument)
  /-- a switch whose value has to be the next argument -/
  | pending (arguments : List Argument) (name : String)
  /-- behind these nothing is read -/
  | last (arguments : List Argument)
  | endOfSwitches
  | unknown
  deriving DecidableEq, Repr

def readLong (switches : List Switch) (cs : List Char) : Reading :=
  let cut := Text.cutAt? '=' cs
  let name := String.ofList ((cut.map (·.1)).getD cs)
  match switches.find? (·.name == name), cut with
  | none, _ => .unknown
  | some switch, some (_, value) =>
    if switch.kind = .value then .complete [.option switch.name (String.ofList value)]
    else .unknown
  | some switch, none =>
    match switch.kind with
    | .flag => .complete [.switch switch.name]
    | .value => .pending [] switch.name
    | .last => .last [.switch switch.name]

/-- A value that stands directly behind a letter, with or without an equals sign. -/
def attachedValue (cs : List Char) : String :=
  String.ofList (if cs.head? = some '=' then cs.tail else cs)

/-- Letters behind one hyphen. The first one that is more than a flag ends them. -/
def readLetters (switches : List Switch) (before : List Argument) : List Char → Reading
  | [] => .complete before.reverse
  | c :: cs =>
    match switches.find? (·.letter == some c) with
    | none => .unknown
    | some switch =>
      match switch.kind with
      | .flag => readLetters switches (.switch switch.name :: before) cs
      | .value =>
        if cs.isEmpty then .pending before.reverse switch.name
        else .complete (before.reverse ++ [.option switch.name (attachedValue cs)])
      | .last => .last (before.reverse ++ [.switch switch.name])

/-- One argument by itself. A hyphen alone is a word. -/
def Reading.of (switches : List Switch) (argument : String) : Reading :=
  match argument.toList with
  | ['-', '-'] => .endOfSwitches
  | '-' :: '-' :: cs => readLong switches cs
  | '-' :: c :: cs => readLetters switches [] (c :: cs)
  | _ => .complete [.word argument]

/-- Whether an argument can be the value of the switch before it. -/
def isValue (argument : String) : Bool :=
  match argument.toList with
  | '-' :: _ :: _ => false
  | _ => true

def readAll? (switches : List Switch) : List String → Option (List Argument)
  | [] => some []
  | argument :: rest =>
    match Reading.of switches argument with
    | .complete arguments => (readAll? switches rest).map (arguments ++ ·)
    | .pending arguments name =>
      match rest with
      | [] => none
      | value :: rest =>
        if isValue value then
          (readAll? switches rest).map (arguments ++ .option name value :: ·)
        else none
    | .last arguments => some arguments
    | .endOfSwitches => some (rest.map .word)
    | .unknown => none

/-- The arguments before the first word, and that word with what follows it; no word if nothing is
read up to there. -/
def readUpToWord? (switches : List Switch) :
    List String → Option (List Argument × Option (String × List String))
  | [] => none
  | argument :: rest =>
    match Reading.of switches argument with
    | .complete [.word text] => some ([], some (text, rest))
    | .complete arguments =>
      (readUpToWord? switches rest).map fun (later, word) => (arguments ++ later, word)
    | .pending arguments name =>
      match rest with
      | [] => none
      | value :: rest =>
        if isValue value then
          (readUpToWord? switches rest).map fun (later, word) =>
            (arguments ++ .option name value :: later, word)
        else none
    | .last arguments => some (arguments, none)
    | .endOfSwitches => none
    | .unknown => none

/-- Whether a flag is given; no answer if it is repeated. -/
def flag? (name : String) (arguments : List Argument) : Option Bool :=
  match arguments.count (.switch name) with
  | 0 => some false
  | 1 => some true
  | _ => none

def values (name : String) (arguments : List Argument) : List String :=
  arguments.filterMap fun
    | .option other value => if other = name then some value else none
    | _ => none

/-- The value of a switch, if it is given; no answer if it is repeated. -/
def single? (name : String) (arguments : List Argument) : Option (Option String) :=
  match values name arguments with
  | [] => some none
  | [value] => some (some value)
  | _ => none

def words (arguments : List Argument) : List String :=
  arguments.filterMap fun
    | .word text => some text
    | _ => none

end DecisionTree.Command
