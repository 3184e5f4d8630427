import DecisionTree.Decimal.Nearest

namespace DecisionTree

/-- A finite positive double as `mantissa * 2 ^ exponent`. -/
structure Dyadic where
  mantissa : Nat
  exponent : Int
  /-- the next smaller double is half as far away as the next larger one -/
  narrow : Bool
  deriving DecidableEq, Repr

/-- Which neighbour is taken when two shortest decimals are equally near. -/
inductive Tie where
  | even
  | up
  deriving DecidableEq, Repr

namespace Dyadic

/-- Bits of a double without its sign bit. -/
def magnitude (x : Float) : Nat :=
  x.toBits.toNat % Nat.pow 2 63

/-- The value of finite magnitude bits. A zero exponent field marks the doubles without the
implicit leading one. -/
def ofMagnitude (bits : Nat) : Dyadic :=
  let field : Nat := bits / Nat.pow 2 52
  let fraction : Nat := bits % Nat.pow 2 52
  if field = 0 then ⟨fraction, -1074, false⟩
  else ⟨Nat.pow 2 52 + fraction, field - 1075, fraction = 0 && field > 1⟩

/-- Compares `digits * 10 ^ grid` with `bound * 2 ^ (x.exponent - 2)`. -/
def compareQuarters (x : Dyadic) (digits : Nat) (grid : Int) (bound : Nat) : Ordering :=
  compare (digits * Nat.pow 10 grid.toNat * Nat.pow 2 (2 - x.exponent).toNat)
    (bound * Nat.pow 2 (x.exponent - 2).toNat * Nat.pow 10 (-grid).toNat)

/-- The decimal `digits * 10 ^ grid` rounds to `x`: it lies between the midpoints to the
neighbouring doubles, and on a midpoint only if the mantissa of `x` is even. -/
def readsBack (x : Dyadic) (digits : Nat) (grid : Int) : Bool :=
  let below := if x.narrow then 4 * x.mantissa - 1 else 4 * x.mantissa - 2
  let above := 4 * x.mantissa + 2
  let closed := x.mantissa % 2 == 0
  let low := x.compareQuarters digits grid below
  let high := x.compareQuarters digits grid above
  (low == .gt || closed && low == .eq) && (high == .lt || closed && high == .eq)

def digitCount (n : Nat) : Nat :=
  (Nat.toDigits 10 n).length

/-- The least `k` with `x < 10 ^ k`. -/
def scale (x : Dyadic) : Int :=
  let whole := x.mantissa * Nat.pow 2 x.exponent.toNat / Nat.pow 2 (-x.exponent).toNat
  if whole = 0 then 1 - digitCount ((Nat.pow 2 (-x.exponent).toNat - 1) / x.mantissa)
  else digitCount whole

/-- On the grid of multiples of `10 ^ grid`, the neighbour of `x` that reads back; of two, the
nearer one. -/
def onGrid? (x : Dyadic) (tie : Tie) (grid : Int) : Option Nat :=
  let numerator := x.mantissa * Nat.pow 2 x.exponent.toNat * Nat.pow 10 (-grid).toNat
  let denominator := Nat.pow 2 (-x.exponent).toNat * Nat.pow 10 grid.toNat
  let lower := numerator / denominator
  match x.readsBack lower grid, x.readsBack (lower + 1) grid with
  | true, false => some lower
  | false, true => some (lower + 1)
  | false, false => none
  | true, true =>
    match compare (2 * numerator) ((2 * lower + 1) * denominator) with
    | .lt => some lower
    | .gt => some (lower + 1)
    | .eq => some (if tie = .even ∧ lower % 2 = 0 then lower else lower + 1)

/-- Tries ever finer grids, each with ten times the digits of the one before. -/
def search? (x : Dyadic) (tie : Tie) : Nat → Int → Option (Nat × Int)
  | 0, _ => none
  | attempts + 1, grid =>
    match x.onGrid? tie grid with
    | some digits => some (digits, grid)
    | none => x.search? tie attempts (grid - 1)

def exact (x : Dyadic) : Nat × Int :=
  (x.mantissa * Nat.pow 2 x.exponent.toNat * Nat.pow 5 (-x.exponent).toNat, min 0 x.exponent)

/-- Moves trailing zeros of the digits into the power of ten. -/
def stripZeros (digits : Nat) (exponent : Int) : Nat × Int :=
  if digits % 10 = 0 ∧ digits ≠ 0 then stripZeros (digits / 10) (exponent + 1)
  else (digits, exponent)
termination_by digits
decreasing_by omega

/-- The fewest digits that read back to `x`; seventeen always suffice, and the exact value stands
by. -/
def shortest (x : Dyadic) (tie : Tie) : Nat × Int :=
  let (digits, grid) := (x.search? tie 17 (x.scale - 1)).getD x.exact
  stripZeros digits grid

end Dyadic

namespace Decimal

/-- The shortest decimal that reads back to a finite number. Zeros keep their sign. -/
def ofFloat (tie : Tie) (x : Float) : Decimal :=
  let negative := x.toBits.toNat ≥ Nat.pow 2 63
  let bits := Dyadic.magnitude x
  if bits = 0 then ⟨negative, 0, 0⟩
  else
    let (digits, exponent) := (Dyadic.ofMagnitude bits).shortest tie
    ⟨negative, digits, exponent⟩

end Decimal
end DecisionTree
