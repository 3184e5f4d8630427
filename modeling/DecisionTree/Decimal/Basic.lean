namespace DecisionTree

/-- The number `digits * 10 ^ exponent`, negated if `negative`. Zero keeps its sign. -/
structure Decimal where
  negative : Bool
  digits : Nat
  exponent : Int
  deriving DecidableEq, Repr

namespace Decimal

/-- The value of a run of ASCII digits read from left to right. -/
def valueOfDigits (cs : List Char) : Nat :=
  cs.foldl (fun value c => 10 * value + (c.toNat - '0'.toNat)) 0

/-- A sign in front of the rest: whether it is a minus, and what follows it. -/
def splitSign : List Char → Bool × List Char
  | '-' :: cs => (true, cs)
  | '+' :: cs => (false, cs)
  | cs => (false, cs)

/-- One or more ASCII digits and nothing else, as a number. -/
def readDigits? (cs : List Char) : Option Nat :=
  if !cs.isEmpty && cs.all Char.isDigit then some (valueOfDigits cs) else none

/-- An exponent part: `e` or `E`, an optional sign and digits. Its absence means 0. -/
def readExponent? : List Char → Option Int
  | [] => some 0
  | c :: cs =>
    if c = 'e' ∨ c = 'E' then
      let (minus, digits) := splitSign cs
      (readDigits? digits).map fun n => if minus then -(n : Int) else n
    else none

/-- The fractional digits after a point, if there is one, and what follows them. -/
def splitFraction : List Char → List Char × List Char
  | '.' :: cs => (cs.takeWhile Char.isDigit, cs.dropWhile Char.isDigit)
  | cs => ([], cs)

/-- An unsigned number: digits, point, digits, exponent. -/
def readUnsigned? (negative : Bool) (cs : List Char) : Option Decimal :=
  let whole := cs.takeWhile Char.isDigit
  let (fraction, rest) := splitFraction (cs.dropWhile Char.isDigit)
  if whole.isEmpty && fraction.isEmpty then none
  else (readExponent? rest).map fun e =>
    ⟨negative, valueOfDigits (whole ++ fraction), e - fraction.length⟩

/-- A whole text as a decimal number with an optional sign. -/
def read? (cs : List Char) : Option Decimal :=
  let (negative, rest) := splitSign cs
  readUnsigned? negative rest

end Decimal
end DecisionTree
