import DecisionTree.Text.Keyword

namespace DecisionTree

inductive Comparison where
  | equal
  | notEqual
  | lessThan
  | lessOrEqual
  | greaterThan
  | greaterOrEqual
  | isMissing
  | isNotMissing
  deriving DecidableEq, Repr

inductive Membership where
  | isIn
  | isNotIn
  deriving DecidableEq, Repr

inductive Connective where
  | and
  | or
  | xor
  | surrogate
  deriving DecidableEq, Repr

def Comparison.name : Comparison → String
  | .equal => "equal"
  | .notEqual => "notEqual"
  | .lessThan => "lessThan"
  | .lessOrEqual => "lessOrEqual"
  | .greaterThan => "greaterThan"
  | .greaterOrEqual => "greaterOrEqual"
  | .isMissing => "isMissing"
  | .isNotMissing => "isNotMissing"

/-- All comparisons but the two tests of presence have a literal. -/
def Comparison.requiresLiteral : Comparison → Bool
  | .isMissing => false
  | .isNotMissing => false
  | _ => true

def Membership.name : Membership → String
  | .isIn => "isIn"
  | .isNotIn => "isNotIn"

def Connective.name : Connective → String
  | .and => "and"
  | .or => "or"
  | .xor => "xor"
  | .surrogate => "surrogate"

instance : Lexicon Comparison where
  members := [.equal, .notEqual, .lessThan, .lessOrEqual, .greaterThan, .greaterOrEqual,
    .isMissing, .isNotMissing]
  spelling := Comparison.name
  entries := [
    ("equal", .equal),
    ("notequal", .notEqual),
    ("lessthan", .lessThan),
    ("lessorequal", .lessOrEqual),
    ("greaterthan", .greaterThan),
    ("greaterorequal", .greaterOrEqual),
    ("ismissing", .isMissing),
    ("isnotmissing", .isNotMissing)]

instance : Lexicon Membership where
  members := [.isIn, .isNotIn]
  spelling := Membership.name
  entries := [("isin", .isIn), ("isnotin", .isNotIn)]

instance : Lexicon Connective where
  members := [.and, .or, .xor, .surrogate]
  spelling := Connective.name
  entries := [("and", .and), ("or", .or), ("xor", .xor), ("surrogate", .surrogate)]

end DecisionTree
