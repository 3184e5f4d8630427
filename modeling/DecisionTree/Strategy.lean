import DecisionTree.Text.Keyword

namespace DecisionTree

/-- What to do when no child holds and at least one is unknown. Only the first two are carried
out; asking for another one is an error. -/
inductive MissingValueStrategy where
  | nullPrediction
  | lastPrediction
  | defaultChild
  | weightedConfidence
  | aggregateNodes
  | none
  deriving DecidableEq, Repr

inductive NoTrueChildStrategy where
  | returnNullPrediction
  | returnLastPrediction
  deriving DecidableEq, Repr

/-- Whether several children of a node may hold at once. Under a binary split at most one may. -/
inductive Split where
  | binary
  | multi
  deriving DecidableEq, Repr

/-- The canonical spelling of a missing value strategy. -/
def MissingValueStrategy.name : MissingValueStrategy → String
  | .nullPrediction => "nullPrediction"
  | .lastPrediction => "lastPrediction"
  | .defaultChild => "defaultChild"
  | .weightedConfidence => "weightedConfidence"
  | .aggregateNodes => "aggregateNodes"
  | .none => "none"

/-- The strategies that scoring carries out. -/
def MissingValueStrategy.isSupported : MissingValueStrategy → Bool
  | .nullPrediction => true
  | .lastPrediction => true
  | _ => false

/-- The canonical spelling of a no true child strategy. -/
def NoTrueChildStrategy.name : NoTrueChildStrategy → String
  | .returnNullPrediction => "returnNullPrediction"
  | .returnLastPrediction => "returnLastPrediction"

/-- The canonical spelling of a split characteristic. -/
def Split.name : Split → String
  | .binary => "binarySplit"
  | .multi => "multiSplit"

instance : Lexicon MissingValueStrategy where
  members := [.nullPrediction, .lastPrediction, .defaultChild, .weightedConfidence,
    .aggregateNodes, .none]
  spelling := MissingValueStrategy.name
  entries := [
    ("nullprediction", .nullPrediction),
    ("lastprediction", .lastPrediction),
    ("defaultchild", .defaultChild),
    ("weightedconfidence", .weightedConfidence),
    ("aggregatenodes", .aggregateNodes),
    ("none", .none)]

instance : Lexicon NoTrueChildStrategy where
  members := [.returnNullPrediction, .returnLastPrediction]
  spelling := NoTrueChildStrategy.name
  entries := [
    ("returnnullprediction", .returnNullPrediction),
    ("returnlastprediction", .returnLastPrediction)]

instance : Lexicon Split where
  members := [.binary, .multi]
  spelling := Split.name
  entries := [("binarysplit", .binary), ("multisplit", .multi)]

/-- What a strategy keyword was meant to be. -/
inductive StrategyKind where
  | missingValue
  | noTrueChild
  | split
  deriving DecidableEq, Repr

def StrategyKind.name : StrategyKind → String
  | .missingValue => "missing value strategy"
  | .noTrueChild => "no true child strategy"
  | .split => "split characteristic"

structure UnknownStrategy where
  kind : StrategyKind
  keyword : String
  deriving DecidableEq, Repr

def UnknownStrategy.message (error : UnknownStrategy) : String :=
  s!"unknown {error.kind.name} '{error.keyword}'"

/-- A missing value strategy read loosely from its keyword. -/
def MissingValueStrategy.read (keyword : String) :
    Except UnknownStrategy MissingValueStrategy :=
  match Lexicon.read? keyword with
  | some strategy => .ok strategy
  | Option.none => .error ⟨.missingValue, keyword⟩

/-- A no true child strategy read loosely from its keyword. -/
def NoTrueChildStrategy.read (keyword : String) : Except UnknownStrategy NoTrueChildStrategy :=
  match Lexicon.read? keyword with
  | some strategy => .ok strategy
  | none => .error ⟨.noTrueChild, keyword⟩

/-- A split characteristic read loosely from its keyword. -/
def Split.read (keyword : String) : Except UnknownStrategy Split :=
  match Lexicon.read? keyword with
  | some split => .ok split
  | none => .error ⟨.split, keyword⟩

/-- The two strategies under which a model is scored. -/
structure Strategies where
  missingValue : MissingValueStrategy := .none
  noTrueChild : NoTrueChildStrategy := .returnNullPrediction
  deriving DecidableEq, Repr

/-- Strategies that replace those below them; what is not set leaves them alone. -/
structure Overrides where
  missingValue : Option MissingValueStrategy := none
  noTrueChild : Option NoTrueChildStrategy := none
  deriving DecidableEq, Repr

namespace Overrides

/-- The strategies with what is set replaced. -/
def apply (overrides : Overrides) (base : Strategies) : Strategies :=
  ⟨overrides.missingValue.getD base.missingValue, overrides.noTrueChild.getD base.noTrueChild⟩

/-- This layer with another one on top, which wins where it is set. -/
def under (lower upper : Overrides) : Overrides :=
  ⟨upper.missingValue.or lower.missingValue, upper.noTrueChild.or lower.noTrueChild⟩

/-- Layers from the lowest to the highest as one. -/
def stack (layers : List Overrides) : Overrides :=
  layers.foldl under {}

end Overrides
end DecisionTree
