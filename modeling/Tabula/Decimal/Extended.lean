import Tabula.Decimal.Shortest

/-!
# Numbers with 64 bit mantissas

Text and floating point numbers are converted into each other through numbers of 64 bits: a decimal
number is scaled by powers of ten step by step, and every step rounds. The result is therefore now
and then one bit away from the nearest one, and the same steps have to be taken to arrive at it.
Exponents have no bound here; nothing that is scaled comes near the one of the hardware.
-/

namespace Tabula.Decimal

/-! ## Rounding -/

/-- `n / 2 ^ count`, rounded to the nearest whole number, a half to the even one. -/
def shiftRounded (n count : Nat) : Nat :=
  let floor := n >>> count
  let remainder := n - (floor <<< count)
  let unit := 1 <<< count
  if unit < 2 * remainder || (2 * remainder = unit && floor % 2 = 1) then floor + 1 else floor

/-- The floating point number nearest to `n * 2 ^ exponent`, put together from its bits. What exceeds
the greatest finite one is infinite. -/
def nearestFloat (n : Nat) (exponent : Int) : Float :=
  if n = 0 then 0
  else
    let surplus := max ((n.log2 : Int) - 52) (-1074 - exponent)
    let mantissa := if surplus ≤ 0 then n <<< (-surplus).toNat else shiftRounded n surplus.toNat
    -- The leading one of a mantissa of 53 bits is not stored, but counts as one for the exponent.
    let bits := ((exponent + surplus + 1074).toNat <<< 52) + mantissa
    Float.ofBits (UInt64.ofNat (min bits 0x7ff0000000000000))

/-! ## The numbers -/

/-- A number `mantissa * 2 ^ exponent` whose mantissa has 64 bits, or zero. -/
structure Extended where
  mantissa : Nat
  exponent : Int
  deriving DecidableEq, Repr

namespace Extended

/-- The number nearest to `n * 2 ^ exponent`. -/
def nearest (n : Nat) (exponent : Int) : Extended :=
  if n = 0 then ⟨0, 0⟩
  else
    let surplus := (n.log2 : Int) - 63
    if surplus ≤ 0 then ⟨n <<< (-surplus).toNat, exponent + surplus⟩
    else
      let mantissa := shiftRounded n surplus.toNat
      if mantissa = UInt64.size then ⟨mantissa / 2, exponent + surplus + 1⟩
      else ⟨mantissa, exponent + surplus⟩

/-- A whole number of up to 64 bits. -/
def ofNat (n : Nat) : Extended := nearest n 0

/-- The value of a floating point number's magnitude. -/
def ofBinary (b : Binary) : Extended := nearest b.mantissa b.exponent

/-- The number nearest to a power of ten. A negative power is the quotient to 128 places beyond the
leading one, with a mark for a remainder. -/
def tenTo (power : Int) : Extended :=
  if 0 ≤ power then ofNat (powerOfTen power.toNat)
  else
    let divisor := powerOfTen power.natAbs
    let places := divisor.log2 + 128
    let quotient := (1 <<< places) / divisor
    nearest (2 * quotient + 1) (-1 - Int.ofNat places)

/-- The rounded product. -/
def mul (a b : Extended) : Extended :=
  nearest (a.mantissa * b.mantissa) (a.exponent + b.exponent)

/-- Whether a nonzero number is less than another. -/
def lt (a b : Extended) : Bool :=
  a.exponent < b.exponent || (a.exponent = b.exponent && a.mantissa < b.mantissa)

/-- The whole number below. -/
def floor (x : Extended) : Nat :=
  (x.mantissa <<< x.exponent.toNat) >>> (-x.exponent).toNat

/-- The nearest floating point number. What exceeds the greatest finite one is infinite. -/
def toFloat (x : Extended) : Float :=
  let greatest := ofNat (0x1fffffffffffff <<< 971)
  if x.mantissa = 0 then 0
  else if greatest.lt x then 1 / 0
  else nearestFloat x.mantissa x.exponent

/-! ## Scaling -/

/-- The factors of stepwise scaling up, by the power of ten they stand for. -/
def hundredUp : Extended := tenTo 100
@[inherit_doc hundredUp] def tenUp : Extended := tenTo 10
@[inherit_doc hundredUp] def oneUp : Extended := tenTo 1

/-- The factors of stepwise scaling down, by the power of ten they stand for. -/
def hundredDown : Extended := tenTo (-100)
@[inherit_doc hundredDown] def tenDown : Extended := tenTo (-10)
@[inherit_doc hundredDown] def oneDown : Extended := tenTo (-1)

/-- Multiplies by a factor some number of times. -/
def times (factor : Extended) (count : Nat) (x : Extended) : Extended :=
  count.repeat (mul · factor) x

/-- `x * 10 ^ power` in steps of a hundred places, ten places and one place. -/
def scale (x : Extended) (power : Int) : Extended :=
  let n := power.natAbs
  let steps (hundred ten one : Extended) : Extended :=
    times one (n % 10) (times ten (n % 100 / 10) (times hundred (n / 100) x))
  if 0 ≤ power then steps hundredUp tenUp oneUp else steps hundredDown tenDown oneDown

/-- The numbers between which stepwise scaling stops, and those at which the steps get shorter. -/
def lowest : Extended := tenTo 17
@[inherit_doc lowest] def lowForTen : Extended := tenTo 7
@[inherit_doc lowest] def lowForHundred : Extended := tenTo (-97)
@[inherit_doc lowest] def highest : Extended := tenTo 19
@[inherit_doc lowest] def highForTen : Extended := tenTo 29
@[inherit_doc lowest] def highForHundred : Extended := tenTo 119

/-- One step of scaling a nonzero number to at least `10 ^ 17` and less than `10 ^ 19`: the factor
and the power of ten that makes up for it. -/
def step? (x : Extended) : Option (Extended × Int) :=
  if !x.lt highForHundred then some (hundredDown, 100)
  else if !x.lt highForTen then some (tenDown, 10)
  else if !x.lt highest then some (oneDown, 1)
  else if x.lt lowForHundred then some (hundredUp, -100)
  else if x.lt lowForTen then some (tenUp, -10)
  else if x.lt lowest then some (oneUp, -1)
  else none

/-- A nonzero number scaled to a whole number of 18 or 19 digits, with at most `steps` steps. Floats
take no more than 24. -/
def toWhole (steps : Nat) (x : Extended) (scale : Int) : Expansion :=
  match steps, x.step? with
  | steps + 1, some (factor, power) => toWhole steps (x.mul factor) (scale + power)
  | _, _ => ⟨x.floor, scale⟩

end Extended

/-! ## Decimal numbers -/

namespace Expansion

/-- The floating point number that an expansion reads as. Zeros are moved between the digits and
the scale first, so that few steps are needed; the digits are less than `2 ^ 64`. -/
def read (e : Expansion) : Float :=
  if e.digits = 0 then 0
  else
    let (digits, power) := widen 20 e.digits e.scale
    let (digits, power) := narrow 20 digits power
    ((Extended.ofNat digits).scale power).toFloat
where
  /-- Moves zeros from the scale to the digits while they stay below 64 bits. -/
  widen : Nat → Nat → Int → Nat × Int
    | 0, digits, power => (digits, power)
    | steps + 1, digits, power =>
      if 0 < power && digits < UInt64.size / 10 then widen steps (digits * 10) (power - 1)
      else (digits, power)
  /-- Moves zeros from the digits to the scale. -/
  narrow : Nat → Nat → Int → Nat × Int
    | 0, digits, power => (digits, power)
    | steps + 1, digits, power =>
      if power < 0 && digits % 10 = 0 then narrow steps (digits / 10) (power + 1)
      else (digits, power)

/-- A nonzero expansion without the zeros at its end. -/
def trim (e : Expansion) : Expansion :=
  go (toString e.digits).length e.digits e.scale
where
  /-- Removes at most `steps` zeros. -/
  go : Nat → Nat → Int → Expansion
    | 0, digits, scale => ⟨digits, scale⟩
    | steps + 1, digits, scale =>
      if digits ≠ 0 && digits % 10 = 0 then go steps (digits / 10) (scale + 1) else ⟨digits, scale⟩

/-- An expansion to `count` digits, decided by the next digit alone. -/
def rounded (count : Nat) (e : Expansion) : Expansion :=
  let surplus := (toString e.digits).length - count
  if surplus = 0 then trim e
  else
    let kept := e.digits / powerOfTen (surplus - 1)
    trim ⟨(kept + 5) / 10, e.scale + surplus⟩

/-- The magnitude of a floating point number to `count` digits, of 18 or 19 that are computed. -/
def leading (count : Nat) (b : Binary) : Expansion :=
  if b.mantissa = 0 then ⟨0, 0⟩
  else rounded count ((Extended.ofBinary b).toWhole 40 0)

end Expansion

end Tabula.Decimal
