import DecisionTree.Decimal.Shortest

/-!
Numbers as text, in three notations: plain (positional, never an exponent, no point on whole
numbers), fixed (a set number of places, rounded from the exact value) and scientific beyond a
range (as JSON texts have it).
-/

namespace DecisionTree

namespace Decimal

def signed (negative : Bool) (text : List Char) : List Char :=
  if negative then '-' :: text else text

/-- Digits with the point after the first `point` of them, filled up with zeros on either side.
Without digits behind it the point is left out. -/
def positional (digits : List Char) (point : Int) : List Char :=
  if point ≤ 0 then '0' :: '.' :: (List.replicate (-point).toNat '0' ++ digits)
  else if digits.length ≤ point.toNat then
    digits ++ List.replicate (point.toNat - digits.length) '0'
  else digits.take point.toNat ++ '.' :: digits.drop point.toNat

/-- Positional notation: every digit is written out, however large or small the number. -/
def plain (d : Decimal) : List Char :=
  let digits := Nat.toDigits 10 d.digits
  signed d.negative <|
    if d.digits = 0 then ['0'] else positional digits (digits.length + d.exponent)

def signedExponent (e : Int) : List Char :=
  (if e < 0 then '-' else '+') :: Nat.toDigits 10 e.natAbs

/-- Positional notation with at least one place from `10 ^ -5` up to below `10 ^ 16`; otherwise
one digit before the point and a signed exponent. -/
def scientific (d : Decimal) : List Char :=
  let digits := Nat.toDigits 10 d.digits
  let point : Int := digits.length + d.exponent
  signed d.negative <|
    if d.digits = 0 then ['0', '.', '0']
    else if -5 < point ∧ point ≤ 16 then
      if digits.length ≤ point then positional digits point ++ ['.', '0']
      else positional digits point
    else match digits with
      | [] => []
      | [first] => first :: 'e' :: signedExponent (point - 1)
      | first :: rest => first :: '.' :: rest ++ 'e' :: signedExponent (point - 1)

end Decimal

namespace Number

/-- Positional text of a number with the fewest digits that read back; of two nearest the larger.
`NaN`, `inf` and `-inf` are written by name. -/
def display (x : Float) : String :=
  if x.isNaN then "NaN"
  else if x.isInf then (if x < 0 then "-inf" else "inf")
  else String.ofList (Decimal.ofFloat .up x).plain

/-- The exact value rounded to a number of places, a tie to the even neighbour, with the sign of
the number. -/
def fixed (places : Nat) (x : Float) : String :=
  if x.isNaN then "NaN"
  else if x.isInf then (if x < 0 then "-inf" else "inf")
  else
    let value := Dyadic.ofMagnitude (Dyadic.magnitude x)
    let units :=
      roundHalfEven (value.mantissa * Nat.pow 2 value.exponent.toNat * Nat.pow 10 places)
        (Nat.pow 2 (-value.exponent).toNat)
    let digits := Nat.toDigits 10 units
    let padded := List.replicate (places + 1 - digits.length) '0' ++ digits
    let point := padded.length - places
    let text := if places = 0 then padded else padded.take point ++ '.' :: padded.drop point
    String.ofList (Decimal.signed (x.toBits.toNat ≥ Nat.pow 2 63) text)

end Number
end DecisionTree
