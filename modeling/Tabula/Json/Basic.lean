import Tabula.Assoc
import Tabula.Json.SyntaxError

/-!
# JSON values

The data of a JSON text: numbers are told apart by their spelling (`int` for a whole number within
64 bits, `float` for any other), and objects keep their fields in key order. A numeral is read into
a 64 bit significand and a power of ten. A whole number that fits keeps its exact value; anything else
becomes a floating point number, computed by one multiplication or division by a power of ten (in
steps of `10 ^ 308` for very small numbers), so the last bit of the result follows these two
roundings.
-/

namespace Tabula

/-! ## Values -/

/-- A JSON value. -/
inductive Json where
  | null
  | bool (b : Bool)
  | int (n : Int)
  | float (x : Float)
  | string (s : String)
  | array (items : List Json)
  | object (fields : List (String × Json))
  deriving Repr, Inhabited

namespace Json

/-- The field of an object. -/
def field? : Json → String → Option Json
  | object fields, name => Assoc.find? fields name
  | _, _ => none

/-- The name of a value's kind in messages about filters. -/
def kindName : Json → String
  | null => "null"
  | bool _ => "bool"
  | int _ => "int"
  | float _ => "float"
  | string _ => "string"
  | array _ => "list"
  | object _ => "mapping"

/-! ## Numerals -/

/-- The parts of a numeral. -/
structure Numeral where
  negative : Bool
  whole : List Char
  /-- The digits after the point; `none` without a point. -/
  fraction : Option (List Char)
  /-- The sign and the digits of the exponent; `none` without an exponent. -/
  exponent : Option (Bool × List Char)

namespace Numeral

/-- The value of a decimal digit. -/
def digitValue (c : Char) : Nat := c.toNat - '0'.toNat

/-- The value of a row of digits. -/
def digitsValue (cs : List Char) : Nat :=
  cs.foldl (fun n c => 10 * n + digitValue c) 0

/-- Appends digits to a significand while it stays below `2 ^ 64`; the second part is the digits
that were left over. -/
def accumulate : Nat → List Char → Nat × List Char
  | significand, [] => (significand, [])
  | significand, c :: cs =>
    let next := 10 * significand + digitValue c
    if UInt64.size ≤ next then (significand, c :: cs) else accumulate next cs

/-- The greatest exponent that is kept apart from larger ones. -/
def maxExponent : Nat := Int32.maxValue.toNatClampNeg

/-- Whether the digits of an exponent go beyond the greatest one. -/
def exponentOverflows (digits : List Char) : Bool :=
  maxExponent < digitsValue digits

/-- The exponent kept within 32 bits. -/
def clampExponent (e : Int) : Int :=
  max Int32.minValue.toInt (min e Int32.maxValue.toInt)

/-- `x * 10 ^ e`; `none` if that is too large. -/
def scaleFloat (x : Float) (e : Int) : Option Float :=
  if h : 308 < e.natAbs then
    if x == 0 then some x
    else if 0 ≤ e then none
    else scaleFloat (x / 1e308) (e + 308)
  else
    let power := Float.ofScientific 1 false e.natAbs
    if 0 ≤ e then
      let product := x * power
      if product.isInf then none else some product
    else some (x / power)
termination_by e.natAbs
decreasing_by omega

/-- The sign put back on a magnitude. -/
def signed (n : Numeral) (x : Float) : Float :=
  if n.negative then -x else x

/-- A whole number too large for 64 bits, or negative zero, as a float; any other exactly. -/
def wholeValue (n : Numeral) (significand : Nat) : Json :=
  if n.negative then
    if significand = 0 || Int64.minValue.toInt.natAbs < significand then
      .float (-significand.toUInt64.toFloat)
    else .int (-significand)
  else .int significand

/-- The value of a numeral. -/
def value (n : Numeral) : Except SyntaxError Json :=
  let (whole, dropped) := accumulate 0 n.whole
  let (significand, unread) := accumulate whole (n.fraction.getD [])
  let places := (n.fraction.getD []).length - unread.length
  let start : Int := Int.ofNat dropped.length - Int.ofNat places
  let scaled (e : Int) : Except SyntaxError Json :=
    match scaleFloat significand.toUInt64.toFloat e with
    | some x => .ok (.float (n.signed x))
    | none => .error .numberOutOfRange
  match n.exponent with
  | none =>
    if n.fraction.isNone && dropped.isEmpty then .ok (n.wholeValue significand) else scaled start
  | some (negativeExponent, digits) =>
    if exponentOverflows digits then
      if significand ≠ 0 && !negativeExponent then .error .numberOutOfRange
      else .ok (.float (n.signed 0))
    else
      let e : Int := digitsValue digits
      scaled (clampExponent (if negativeExponent then start - e else start + e))

end Numeral

end Json

end Tabula
