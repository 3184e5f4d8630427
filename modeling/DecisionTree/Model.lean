import DecisionTree.Tree.Scoring

namespace DecisionTree

/-- A field that a model declares. Scoring never consults it. -/
structure MiningField where
  name : String
  usage : Option String
  deriving DecidableEq, Repr

structure Model where
  name : Option String := none
  function : Option String := none
  fields : List MiningField := []
  root : Node
  split : Split := .multi
  strategies : Strategies := {}

namespace Model

def displayName (model : Model) : String :=
  model.name.getD "<unnamed>"

/-- The prediction for a record under given strategies. -/
def scoreWith (model : Model) (strategies : Strategies) (record : Record) :
    Except ScoreError Prediction :=
  model.root.predict model.split strategies record

/-- The prediction for a record under the strategies of the model. -/
def score (model : Model) (record : Record) : Except ScoreError Prediction :=
  model.scoreWith model.strategies record

end Model
end DecisionTree
