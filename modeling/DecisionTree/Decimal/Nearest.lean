import DecisionTree.Decimal.Basic

namespace DecisionTree

/-- The quotient rounded to the nearest integer, a tie to the even one. -/
def roundHalfEven (numerator denominator : Nat) : Nat :=
  let quotient := numerator / denominator
  let remainder := numerator % denominator
  if 2 * remainder < denominator ∨ 2 * remainder = denominator ∧ quotient % 2 = 0 then quotient
  else quotient + 1

namespace Decimal

/-- The largest `e` with `2 ^ e ≤ numerator / denominator`, for a positive fraction. -/
def floorLog2 (numerator denominator : Nat) : Int :=
  let guess : Int := (numerator.log2 : Int) - denominator.log2
  if denominator * Nat.pow 2 guess.toNat ≤ numerator * Nat.pow 2 (-guess).toNat then guess
  else guess - 1

/-- Bits of positive infinity. -/
def infinityBits : Nat := 0x7FF0000000000000

/-- Bits of the double nearest to a positive fraction. With the unit `2 ^ q` of the last place, a
mantissa `m` has the bits `(q + 1074) * 2 ^ 52 + m`; a mantissa rounded up to the next power of
two carries into the exponent, and past the largest double into infinity. -/
def bitsOfFraction (numerator denominator : Nat) : Nat :=
  let unit : Int := max (-1074) (floorLog2 numerator denominator - 52)
  let mantissa :=
    roundHalfEven (numerator * Nat.pow 2 (-unit).toNat) (denominator * Nat.pow 2 unit.toNat)
  min infinityBits ((unit + 1074).toNat * Nat.pow 2 52 + mantissa)

/-- Bits of the double nearest to the decimal without its sign. Exponents beyond the range of a
double decide the answer without computing the power of ten. -/
def magnitudeBits (d : Decimal) : Nat :=
  if d.digits = 0 then 0
  else if d.exponent > 400 then infinityBits
  else if d.exponent + d.digits.log2 + 400 < 0 then 0
  else bitsOfFraction (d.digits * Nat.pow 10 d.exponent.toNat) (Nat.pow 10 (-d.exponent).toNat)

/-- The number with the given magnitude bits and sign. -/
def floatOfBits (negative : Bool) (magnitude : Nat) : Float :=
  Float.ofBits (UInt64.ofNat (magnitude + if negative then Nat.pow 2 63 else 0))

/-- The double nearest to the decimal, ties to even. -/
def nearest (d : Decimal) : Float :=
  floatOfBits d.negative d.magnitudeBits

/-- A power of ten that a double can hold. -/
def powerOfTen (n : Nat) : Float :=
  nearest ⟨false, 1, n⟩

/-- The decimal at working precision: the digits are rounded to a double, and the power of ten is
applied to it by floating-point multiplication or division, so that the last bit may differ from
that of the nearest double. Past the range the result is infinite or zero. -/
def approximate (d : Decimal) : Float :=
  let digits := nearest ⟨false, d.digits, 0⟩
  let magnitude :=
    if d.digits = 0 then 0
    else if d.exponent > 308 then floatOfBits false infinityBits
    else if d.exponent ≥ 0 then digits * powerOfTen d.exponent.toNat
    else if d.exponent ≥ -308 then digits / powerOfTen (-d.exponent).toNat
    else if d.exponent ≥ -616 then digits / powerOfTen 308 / powerOfTen (-d.exponent - 308).toNat
    else 0
  if d.negative then -magnitude else magnitude

end Decimal
end DecisionTree
