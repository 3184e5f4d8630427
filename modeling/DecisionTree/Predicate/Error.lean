import DecisionTree.Predicate.Operator

namespace DecisionTree

/-- The three families of operators, each at home in one kind of predicate. -/
inductive OperatorKind where
  | comparison
  | membership
  | connective
  deriving DecidableEq, Repr

/-- The kind of predicate that a family of operators belongs to. -/
def OperatorKind.name : OperatorKind → String
  | .comparison => "SimplePredicate"
  | .membership => "SimpleSetPredicate"
  | .connective => "CompoundPredicate"

inductive EvaluationError where
  | unknownOperator (kind : OperatorKind) (name : String)
  /-- an ordering test where the field or the literal is no finite number -/
  | notNumeric (field actual expected : String)
  /-- a comparison without the literal that its operator requires -/
  | missingValue (field : String) (operator : Comparison)
  deriving DecidableEq, Repr

def EvaluationError.message : EvaluationError → String
  | .unknownOperator kind name => s!"unknown {kind.name} operator '{name}'"
  | .notNumeric field actual expected =>
    s!"field '{field}': cannot compare '{actual}' with '{expected}' numerically"
  | .missingValue field operator =>
    s!"field '{field}': operator '{operator.name}' requires a value"

def Comparison.read (keyword : String) : Except EvaluationError Comparison :=
  match Lexicon.read? keyword with
  | some operator => .ok operator
  | none => .error (.unknownOperator .comparison keyword)

/-- A membership operator read loosely from its keyword. -/
def Membership.read (keyword : String) : Except EvaluationError Membership :=
  match Lexicon.read? keyword with
  | some operator => .ok operator
  | none => .error (.unknownOperator .membership keyword)

def Connective.read (keyword : String) : Except EvaluationError Connective :=
  match Lexicon.read? keyword with
  | some operator => .ok operator
  | none => .error (.unknownOperator .connective keyword)

end DecisionTree
