import DecisionTree.Decimal.Notation
import DecisionTree.Number

namespace DecisionTree

inductive Value where
  | number (x : Float)
  | text (content : String)
  deriving DecidableEq

namespace Value

/-- The characters between a first and a last double quote. -/
def unquoted? : List Char → Option (List Char)
  | '"' :: rest => if rest.getLast? = some '"' then some rest.dropLast else none
  | _ => none

/-- A value as it is typed: in double quotes always a text, otherwise a number if it reads as a
finite one, otherwise a text. Blanks around it do not count. -/
def ofLiteral (literal : String) : Value :=
  let typed := Text.trimmed literal.toList
  match unquoted? typed with
  | some content => .text (String.ofList content)
  | none =>
    match Number.finite? literal with
    | some x => .number x
    | none => .text (String.ofList typed)

/-- An integer as a value, rounded to the nearest double. -/
def ofInt (n : Int) : Value :=
  .number (Decimal.nearest ⟨n < 0, n.natAbs, 0⟩)

/-- The finite number that a value stands for in comparisons. -/
def number? : Value → Option Float
  | .number x => some x |>.filter Float.isFinite
  | .text content => Number.finite? content

/-- The value as messages show it. -/
def display : Value → String
  | .number x => Number.display x
  | .text content => content

/-- Equality with a literal: of the numbers if both sides are finite numbers, otherwise of the
texts without outer blanks. -/
def agrees (value : Value) (literal : String) : Bool :=
  match value.number?, Number.finite? literal with
  | some a, some b => a == b
  | _, _ => Text.trim value.display == Text.trim literal

end Value
end DecisionTree
