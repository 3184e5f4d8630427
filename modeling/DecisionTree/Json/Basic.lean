import DecisionTree.Decimal.Notation

/-!
JSON values. An object keeps its members as the text lists them, repeated names included; which of
them count is decided by whoever reads it. A number is a double, and always a finite one.
-/

namespace DecisionTree

/-- A double that JSON has a number for. -/
abbrev FiniteFloat := { x : Float // x.isFinite = true }

def FiniteFloat.of? (x : Float) : Option FiniteFloat :=
  if finite : x.isFinite = true then some ⟨x, finite⟩ else none

@[simp] theorem FiniteFloat.of?_val (x : FiniteFloat) : of? x.val = some x :=
  dif_pos x.property

theorem FiniteFloat.of?_of_not_finite {x : Float} (infinite : x.isFinite = false) :
    of? x = none :=
  dif_neg (Bool.eq_false_iff.mp infinite)

inductive Json where
  | null
  | bool (holds : Bool)
  | number (value : FiniteFloat)
  | string (content : String)
  | array (items : List Json)
  | object (members : List (String × Json))

namespace Json

/-- A number as a JSON value; what is not finite has no JSON number and becomes `null`. -/
def ofFloat (x : Float) : Json :=
  match FiniteFloat.of? x with
  | some x => .number x
  | none => .null

def ofText? : Option String → Json
  | some content => .string content
  | none => .null

def ofFloat? : Option Float → Json
  | some x => ofFloat x
  | none => .null

end Json
end DecisionTree
