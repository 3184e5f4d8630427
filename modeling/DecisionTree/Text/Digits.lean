namespace DecisionTree.Text

def digit? (base : Nat) (c : Char) : Option Nat :=
  let value :=
    if c.isDigit then c.toNat - '0'.toNat
    else if 'a' ≤ c ∧ c ≤ 'f' then c.toNat - 'a'.toNat + 10
    else if 'A' ≤ c ∧ c ≤ 'F' then c.toNat - 'A'.toNat + 10
    else base
  if value < base then some value else none

/-- The value of digits behind those that give `soFar`. -/
def valueFrom? (base soFar : Nat) : List Char → Option Nat
  | [] => some soFar
  | c :: cs => do
    let value ← digit? base c
    valueFrom? base (soFar * base + value) cs

/-- The number that digits to a base stand for; 0 without any. -/
def valueIn? (base : Nat) (digits : List Char) : Option Nat :=
  valueFrom? base 0 digits

end DecisionTree.Text
