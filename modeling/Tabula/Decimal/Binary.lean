/-!
# Binary fractions

A finite floating point number is a whole number of units `2 ^ exponent`. Comparisons with whole
numbers and decimal expansions are carried out on this exact form, never on rounded values.
-/

namespace Tabula.Decimal

/-! ## The exact value of a floating point number -/

/-- A number `± mantissa * 2 ^ exponent`. -/
structure Binary where
  negative : Bool
  mantissa : Nat
  exponent : Int
  deriving DecidableEq, Repr

namespace Binary

/-- The exact value of a finite floating point number; infinities and not-a-numbers have none. -/
def ofFloat? (x : Float) : Option Binary :=
  let bits := x.toBits.toNat
  let negative := bits >>> 63 = 1
  let biased : Nat := (bits >>> 52) % 0x800
  let fraction := bits % 0x10000000000000
  if biased = 0x7ff then none
  else if biased = 0 then some ⟨negative, fraction, -1074⟩
  else some ⟨negative, fraction + 0x10000000000000, Int.ofNat biased - 1075⟩

/-- The value as a signed numerator over a power of two. -/
def fraction (b : Binary) : Int × Nat :=
  let magnitude : Nat := b.mantissa <<< b.exponent.toNat
  (if b.negative then -(magnitude : Int) else magnitude, 1 <<< (-b.exponent).toNat)

/-- Where a whole number lies in relation to a binary fraction. -/
def compareInt (n : Int) (b : Binary) : Ordering :=
  compare (n * b.fraction.2) b.fraction.1

/-- The order of two binary fractions. -/
def compareTo (a b : Binary) : Ordering :=
  compare (a.fraction.1 * b.fraction.2) (b.fraction.1 * a.fraction.2)

/-- The whole number that a binary fraction equals, if it equals one. -/
def toInt? (b : Binary) : Option Int :=
  let (numerator, denominator) := b.fraction
  if numerator % denominator = 0 then some (numerator / denominator) else none

end Binary

end Tabula.Decimal
