/-!
Three-valued truth: a test holds, fails, or cannot be decided because a field is missing.
Conjunction and disjunction are those of Kleene's strong logic; `exactlyOne` and `firstKnown` are
the two further ways in which compound tests combine their operands.
-/

namespace DecisionTree

inductive Truth where
  | yes
  | no
  | unknown
  deriving DecidableEq, Repr

namespace Truth

def ofBool (holds : Bool) : Truth :=
  if holds then .yes else .no

/-- Exchanges `yes` and `no`; what is unknown stays so. -/
def negate : Truth → Truth
  | .yes => .no
  | .no => .yes
  | .unknown => .unknown

/-- `no` if some operand fails, `yes` if all hold, otherwise unknown. -/
def all (operands : List Truth) : Truth :=
  if operands.contains .no then .no
  else if operands.contains .unknown then .unknown
  else .yes

/-- `yes` if some operand holds, `no` if all fail, otherwise unknown. -/
def any (operands : List Truth) : Truth :=
  if operands.contains .yes then .yes
  else if operands.contains .unknown then .unknown
  else .no

/-- Unknown if some operand is, otherwise whether exactly one operand holds. -/
def exactlyOne (operands : List Truth) : Truth :=
  if operands.contains .unknown then .unknown
  else ofBool (operands.count .yes == 1)

/-- The first operand that is decided; unknown if none is. -/
def firstKnown (operands : List Truth) : Truth :=
  (operands.find? (· != .unknown)).getD .unknown

end Truth
end DecisionTree
