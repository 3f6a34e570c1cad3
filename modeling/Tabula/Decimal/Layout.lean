import Tabula.Decimal.Shortest

/-!
# Layout of decimal numbers

Given the digits of a number, a layout says how they are written: between which powers of ten
positionally, whether a whole number keeps a point and a zero, and how an exponent is spelled.
-/

namespace Tabula.Decimal

/-- How the digits of a number are written. -/
structure Layout where
  /-- Which digits are taken for a number halfway between two shortest candidates. -/
  halfway : Halfway
  /-- The power of ten of the leading digit for which the number is written positionally. -/
  positional : Int → Bool
  /-- Whether a number without a fraction ends in a point and a zero. -/
  keepsPoint : Bool
  /-- Whether the digits before an exponent always have a point. -/
  pointBeforeExponent : Bool
  /-- Whether an exponent that is not negative has a plus sign. -/
  plusSign : Bool
  /-- The least count of digits of an exponent. -/
  exponentWidth : Nat

namespace Layout

/-- The point and zero that end a whole number. -/
def wholeEnd (l : Layout) : String :=
  if l.keepsPoint then ".0" else ""

/-- Digits with the leading one worth `10 ^ lead`, written without an exponent. -/
def positionalText (l : Layout) (digits : List Char) (lead : Int) : String :=
  if lead < 0 then
    "0." ++ String.ofList (List.replicate (-lead - 1).toNat '0' ++ digits)
  else
    let whole := (lead + 1).toNat
    if digits.length ≤ whole then
      String.ofList (digits ++ List.replicate (whole - digits.length) '0') ++ l.wholeEnd
    else
      String.ofList (digits.take whole) ++ "." ++ String.ofList (digits.drop whole)

/-- Digits with the leading one worth `10 ^ lead`, written with an exponent. -/
def exponentText (l : Layout) (digits : List Char) (lead : Int) : String :=
  let fraction := match digits.drop 1 with
    | [] => if l.pointBeforeExponent then ".0" else ""
    | rest => "." ++ String.ofList rest
  let sign := if lead < 0 then "-" else if l.plusSign then "+" else ""
  let exponent := (toString lead.natAbs).toList
  let padding := List.replicate (l.exponentWidth - exponent.length) '0'
  String.ofList (digits.take 1) ++ fraction ++ "e" ++ sign ++ String.ofList (padding ++ exponent)

/-- An expansion as text. -/
def expansionText (l : Layout) (e : Expansion) : String :=
  if e.digits = 0 then "0" ++ l.wholeEnd
  else
    let digits := (toString e.digits).toList
    let lead := (digits.length : Int) - 1 + e.scale
    if l.positional lead then l.positionalText digits lead else l.exponentText digits lead

/-- A floating point number in its shortest digits. -/
def text (l : Layout) (x : Float) : String :=
  match Binary.ofFloat? x with
  | none => if x.isNaN then "NaN" else if x < 0 then "-inf" else "inf"
  | some b => (if b.negative then "-" else "") ++ l.expansionText (.shortest l.halfway b)

end Layout

end Tabula.Decimal
