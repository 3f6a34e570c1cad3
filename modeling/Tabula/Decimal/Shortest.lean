import Tabula.Decimal.Binary

/-!
# Shortest decimal expansions

The fewest decimal digits that still read back as a floating point number: the coarsest decimal
grid with a point in the interval of reals that round to the number, and on that grid the point
nearest to it. When the number lies halfway between two such points, writers differ in which one
they take, so that is an argument.
-/

namespace Tabula.Decimal

/-- A decimal number `digits * 10 ^ scale`. -/
structure Expansion where
  digits : Nat
  scale : Int
  deriving DecidableEq, Repr

/-- Which of two equally near grid points is taken. -/
inductive Halfway where
  | even
  | away
  deriving DecidableEq, Repr

/-! ## Decimal grids -/

/-- A power of ten. -/
def powerOfTen (n : Nat) : Nat := Nat.pow 10 n

/-- A positive fraction in units of `10 ^ scale`, as numerator and denominator. -/
def inUnits (numerator denominator : Nat) (scale : Int) : Nat × Nat :=
  (numerator * powerOfTen (-scale).toNat, denominator * powerOfTen scale.toNat)

/-- The reals around `value` that round to it, in common units: both ends, and whether the ends
belong to the interval. -/
structure Interval where
  low : Nat
  value : Nat
  high : Nat
  closed : Bool
  denominator : Nat

namespace Interval

/-- The interval of a binary fraction with a 53 bit mantissa. Below a power of two the next
number is only half as far away. -/
def ofBinary (b : Binary) : Interval :=
  let below := if b.mantissa = 0x10000000000000 && b.exponent > -1074 then 1 else 2
  let scale (n : Nat) : Nat := n <<< (b.exponent - 2).toNat
  { low := scale (4 * b.mantissa - below)
    value := scale (4 * b.mantissa)
    high := scale (4 * b.mantissa + 2)
    closed := b.mantissa % 2 = 0
    denominator := 1 <<< (2 - b.exponent).toNat }

/-- Whether the grid point `n * 10 ^ scale` lies in the interval. -/
def holds (i : Interval) (scale : Int) (n : Nat) : Bool :=
  let point := n * powerOfTen scale.toNat * i.denominator
  let unit := powerOfTen (-scale).toNat
  if i.closed then i.low * unit ≤ point && point ≤ i.high * unit
  else i.low * unit < point && point < i.high * unit

/-- The point of one decimal grid that lies in the interval, the nearer of two. -/
def gridPoint? (i : Interval) (halfway : Halfway) (scale : Int) : Option Nat :=
  let (numerator, denominator) := inUnits i.value i.denominator scale
  let floor := numerator / denominator
  let remainder := numerator % denominator
  let staysBelow := 2 * remainder = denominator && halfway = .even && floor % 2 = 0
  match floor ≠ 0 && i.holds scale floor, i.holds scale (floor + 1) with
  | true, true => if 2 * remainder < denominator || staysBelow then some floor else some (floor + 1)
  | true, false => some floor
  | false, true => some (floor + 1)
  | false, false => none

/-- The first hit on grids of falling scale; `steps` grids are tried. -/
def search (i : Interval) (halfway : Halfway) : Nat → Int → Expansion
  | 0, scale => ⟨0, scale⟩
  | steps + 1, scale =>
    match i.gridPoint? halfway scale with
    | some n => ⟨n, scale⟩
    | none => search i halfway steps (scale - 1)

end Interval

/-- A power of ten, as its exponent, that is above the magnitude of a nonzero binary fraction and
at most two places too high. -/
def scaleAbove (b : Binary) : Int :=
  ((b.mantissa.log2 : Int) + b.exponent + 1) * 30103 / 100000 + 1

namespace Expansion

/-- The expansion with the fewest digits that reads back as the magnitude of `b`. Seventeen digits
always suffice, and the search starts at most two places above the first of them. -/
def shortest (halfway : Halfway) (b : Binary) : Expansion :=
  if b.mantissa = 0 then ⟨0, 0⟩ else (Interval.ofBinary b).search halfway 21 (scaleAbove b)

end Expansion

end Tabula.Decimal
