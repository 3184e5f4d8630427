import DecisionTree.Text.Blank
import DecisionTree.Decimal.Nearest

/-!
Numbers written as text. Besides decimals the grammar has `inf`, `infinity` and `nan` in any
letter case, with an optional sign. Where the library asks for a number in a value or a literal,
only the finite ones count: there `nan` and `inf` are plain labels.
-/

namespace DecisionTree.Number

def named? (cs : List Char) : Option Float :=
  match String.ofList (cs.map Char.toLower) with
  | "inf" => some (Float.ofBits 0x7FF0000000000000)
  | "infinity" => some (Float.ofBits 0x7FF0000000000000)
  | "nan" => some (Float.ofBits 0x7FF8000000000000)
  | _ => none

/-- A whole text as a number: a decimal, rounded to the nearest double, or a named number. -/
def read? (text : String) : Option Float :=
  match Decimal.read? text.toList with
  | some decimal => some decimal.nearest
  | none =>
    let (negative, rest) := Decimal.splitSign text.toList
    (named? rest).map fun x => if negative then -x else x

/-- A text with blanks around it as a finite number. -/
def finite? (text : String) : Option Float :=
  (read? (Text.trim text)).filter Float.isFinite

end DecisionTree.Number
