namespace DecisionTree.Report

inductive Style where
  | bold
  | dim
  | green
  | yellow
  | cyan
  deriving DecidableEq, Repr

/-- An escape sequence of a terminal with its number. -/
def escapeSequence (number : String) : String :=
  "\x1b[" ++ number ++ "m"

def Style.on : Style → String
  | .bold => escapeSequence "1"
  | .dim => escapeSequence "2"
  | .green => escapeSequence "32"
  | .yellow => escapeSequence "33"
  | .cyan => escapeSequence "36"

/-- Turns a style off: weights together, colours by returning to that of the terminal. -/
def Style.off : Style → String
  | .bold => escapeSequence "0"
  | .dim => escapeSequence "0"
  | .green => escapeSequence "39"
  | .yellow => escapeSequence "39"
  | .cyan => escapeSequence "39"

def Style.wrap (style : Style) (text : String) : String :=
  style.on ++ text ++ style.off

def paint (colours : Bool) (style : Style) (text : String) : String :=
  if colours then style.wrap text else text

end DecisionTree.Report
