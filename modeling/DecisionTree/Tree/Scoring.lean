import DecisionTree.Predicate.Evaluation
import DecisionTree.Strategy
import DecisionTree.Tree.Node

/-!
Scoring walks down the tree. At each node every child is tested in order; the first child that
holds is entered. Where none is, the walk stops, and the reason for stopping decides together with
the strategies what is predicted there. Strategies have no part in the walk itself.
-/

namespace DecisionTree

inductive Stop where
  | leaf
  /-- no child holds and at least one is unknown -/
  | undecided
  /-- every child fails -/
  | noneHolds
  deriving DecidableEq, Repr

/-- Where a walk led: the nodes above the last one, the last one, and why it stopped there. -/
structure Walk where
  above : List Node
  last : Node
  stop : Stop

def Walk.path (walk : Walk) : List Node :=
  walk.above ++ [walk.last]

inductive WalkError where
  | evaluation (error : EvaluationError)
  /-- several children hold under a binary split -/
  | multipleTrueChildren (node : String) (count : Nat)
  deriving DecidableEq, Repr

/-- What a walk does at a node. -/
inductive Step where
  | enter (child : Node)
  | stop (stop : Stop)

/-- What is known once some of the children of a node have been tested. -/
structure Tally where
  /-- the first child that holds -/
  first : Option Node := none
  /-- how many children hold -/
  count : Nat := 0
  sawUnknown : Bool := false

namespace Tally

def add (tally : Tally) (child : Node) : Truth → Tally
  | .yes => { tally with first := tally.first.or (some child), count := tally.count + 1 }
  | .unknown => { tally with sawUnknown := true }
  | .no => tally

/-- Tests the children that are left, in order and up to the first error. -/
def addAll (record : Record) (tally : Tally) : List Node → Except EvaluationError Tally
  | [] => .ok tally
  | child :: rest => do
    let outcome ← child.predicate.evaluate record
    addAll record (tally.add child outcome) rest

end Tally

namespace Node

/-- What the walk does at a node: all children are tested before one is entered. -/
def step (split : Split) (record : Record) (node : Node) : Except WalkError Step :=
  if node.isLeaf then .ok (.stop .leaf)
  else
    match Tally.addAll record {} node.children with
    | .error error => .error (.evaluation error)
    | .ok tally =>
      if 1 < tally.count ∧ split = .binary then
        .error (.multipleTrueChildren node.label tally.count)
      else
        match tally.first with
        | some child => .ok (.enter child)
        | none => .ok (.stop (if tally.sawUnknown then .undecided else .noneHolds))

private theorem mem_of_addAll {record : Record} {child : Node} {children : List Node}
    {tally found : Tally}
    (added : Tally.addAll record tally children = .ok found) (first : found.first = some child) :
    tally.first = some child ∨ child ∈ children := by
  induction children generalizing tally with
  | nil =>
    cases added
    exact .inl first
  | cons head rest ih =>
    rw [Tally.addAll] at added
    cases outcome : head.predicate.evaluate record with
    | error error =>
      rw [outcome] at added
      cases added
    | ok truth =>
      rw [outcome] at added
      rcases ih added with earlier | later
      · cases truth with
        | yes =>
          rcases Option.or_eq_some_iff.mp earlier with before | ⟨_, here⟩
          · exact .inl before
          · exact .inr (Option.some.inj here ▸ List.mem_cons_self)
        | no => exact .inl earlier
        | unknown => exact .inl earlier
      · exact .inr (List.mem_cons_of_mem _ later)

/-- What is entered is a child of the node. -/
theorem child_mem_of_step {split : Split} {record : Record} {node child : Node}
    (entered : node.step split record = .ok (.enter child)) : child ∈ node.children := by
  unfold step at entered
  split at entered
  next => cases entered
  next =>
    split at entered
    next => cases entered
    next tally added =>
      split at entered
      next => cases entered
      next =>
        split at entered
        next first =>
          cases entered
          exact (mem_of_addAll added first).resolve_left nofun
        next => cases entered

/-- The walk that goes on at the current node, below those that it has left. -/
@[semireducible] def walkFrom (split : Split) (record : Record) (above : List Node)
    (current : Node) : Except WalkError Walk :=
  match _entered : current.step split record with
  | .error error => .error error
  | .ok (.enter child) => walkFrom split record (above ++ [current]) child
  | .ok (.stop stop) => .ok ⟨above, current, stop⟩
termination_by current.depth
decreasing_by exact depth_lt_depth (child_mem_of_step _entered)

def walk (split : Split) (record : Record) (root : Node) : Except WalkError Walk :=
  walkFrom split record [] root

end Node

/-- What a model says about a record, and the nodes it visited, from the root down. -/
structure Prediction where
  value : Option String
  confidence : Float
  path : List Node

inductive ScoreError where
  | evaluation (error : EvaluationError)
  | multipleTrueChildren (node : String) (count : Nat)
  | notSupported (strategy : MissingValueStrategy)
  deriving DecidableEq, Repr

def WalkError.toScoreError : WalkError → ScoreError
  | .evaluation error => .evaluation error
  | .multipleTrueChildren node count => .multipleTrueChildren node count

def ScoreError.message : ScoreError → String
  | .evaluation error => error.message
  | .multipleTrueChildren node count =>
    s!"node {node}: {count} children evaluated true under a binary split"
  | .notSupported strategy => s!"missing value strategy '{strategy.name}' is not supported"

namespace Walk

/-- The prediction of the last node: its score with the confidence it has there. -/
def lastPrediction (walk : Walk) : Prediction where
  value := walk.last.score
  confidence := (walk.last.score.map walk.last.confidenceFor).getD 0
  path := walk.path

/-- No prediction, with confidence 0. -/
def nullPrediction (walk : Walk) : Prediction where
  value := none
  confidence := 0
  path := walk.path

def conclude (strategies : Strategies) (walk : Walk) : Except ScoreError Prediction :=
  match walk.stop with
  | .leaf => .ok walk.lastPrediction
  | .undecided =>
    match strategies.missingValue with
    | .nullPrediction => .ok walk.nullPrediction
    | .lastPrediction => .ok walk.lastPrediction
    | unsupported => .error (.notSupported unsupported)
  | .noneHolds =>
    match strategies.noTrueChild with
    | .returnNullPrediction => .ok walk.nullPrediction
    | .returnLastPrediction => .ok walk.lastPrediction

end Walk

def Node.predict (root : Node) (split : Split) (strategies : Strategies) (record : Record) :
    Except ScoreError Prediction :=
  match root.walk split record with
  | .error error => .error error.toScoreError
  | .ok walk => walk.conclude strategies

def Prediction.labels (prediction : Prediction) : List String :=
  prediction.path.map Node.label

/-- Whether the last node visited is a leaf. -/
def Prediction.endsAtLeaf (prediction : Prediction) : Bool :=
  (prediction.path.getLast?.map Node.isLeaf).getD false

end DecisionTree
