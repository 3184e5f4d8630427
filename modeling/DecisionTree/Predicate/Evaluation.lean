import DecisionTree.Predicate.Basic
import DecisionTree.Predicate.Error
import DecisionTree.Record
import DecisionTree.Truth

/-!
Evaluating a predicate on a record. A test of a missing field is unknown, presence tests apart.
Conjunction, disjunction and exclusive disjunction evaluate every operand, so that the first error
among them surfaces even where another operand decides; a surrogate stops at the first operand
that is decided and never sees those behind it.
-/

namespace DecisionTree

/-- The finite numbers that an ordering test compares. -/
def numericOperands (field : String) (value : Value) (literal : String) :
    Except EvaluationError (Float × Float) :=
  match value.number?, Number.finite? literal with
  | some a, some b => .ok (a, b)
  | _, _ => .error (.notNumeric field value.display literal)

/-- The ordering test of a comparison operator; equality and presence tests have none. -/
def Comparison.order? : Comparison → Option (Float → Float → Bool)
  | .lessThan => some fun a b => a < b
  | .lessOrEqual => some fun a b => a ≤ b
  | .greaterThan => some fun a b => a > b
  | .greaterOrEqual => some fun a b => a ≥ b
  | _ => none

def Comparison.test (operator : Comparison) (field : String) (value : Value)
    (literal : Option String) : Except EvaluationError Bool :=
  match literal with
  | none => .error (.missingValue field operator)
  | some literal =>
    match operator.order? with
    | some order => do
      let (a, b) ← numericOperands field value literal
      return order a b
    | none => .ok (value.agrees literal == (operator == .equal))

namespace Predicate

def evaluateComparison (field : String) (operator : Comparison) (literal : Option String)
    (record : Record) : Except EvaluationError Truth :=
  match operator, record.get? field with
  | .isMissing, value => .ok (.ofBool value.isNone)
  | .isNotMissing, value => .ok (.ofBool value.isSome)
  | _, none => .ok .unknown
  | _, some value => do
    let holds ← operator.test field value literal
    return .ofBool holds

def evaluateMembership (field : String) (operator : Membership) (literals : List String)
    (record : Record) : Truth :=
  match record.get? field with
  | none => .unknown
  | some value => .ofBool (literals.any value.agrees == (operator == .isIn))

mutual

def evaluate (record : Record) : Predicate → Except EvaluationError Truth
  | .always => .ok .yes
  | .never => .ok .no
  | .compare field operator literal => evaluateComparison field operator literal record
  | .member field operator literals => .ok (evaluateMembership field operator literals record)
  | .compound operator operands =>
    match operator with
    | .and => (evaluateAll record operands).map Truth.all
    | .or => (evaluateAll record operands).map Truth.any
    | .xor => (evaluateAll record operands).map Truth.exactlyOne
    | .surrogate => evaluateFirst record operands

/-- The outcomes of all operands, or the first error. -/
def evaluateAll (record : Record) : List Predicate → Except EvaluationError (List Truth)
  | [] => .ok []
  | operand :: rest => do
    let outcome ← evaluate record operand
    let outcomes ← evaluateAll record rest
    return outcome :: outcomes

/-- The outcome of the first operand that is not unknown, an error included. -/
def evaluateFirst (record : Record) : List Predicate → Except EvaluationError Truth
  | [] => .ok .unknown
  | operand :: rest =>
    match evaluate record operand with
    | .ok .unknown => evaluateFirst record rest
    | decided => decided

end

end Predicate
end DecisionTree
