import Tabula.Decimal.Extended
import Tabula.Decimal.Layout

/-!
# Numbers and text

The store turns text into numbers where a numeric column is involved, and numbers into text where
a text column is. Text counts as a number if nothing but blanks surrounds a numeral; a float is
written in fifteen digits.
-/

namespace Tabula.Store

open Decimal (Binary Expansion Layout)

/-! ## Text as a number -/

/-- A number of the store. -/
inductive Number where
  | int (n : Int64)
  | real (x : Float)

/-- A numeral of a text. -/
structure Numeral where
  negative : Bool
  whole : List Char
  fraction : List Char
  exponent : Int
  /-- Whether there is neither a point nor an exponent. -/
  isWhole : Bool

namespace Numeral

/-- Whether a character may surround a numeral. -/
def isBlank (c : Char) : Bool :=
  c = ' ' || c = '\t' || c = '\n' || c = '\x0b' || c = '\x0c' || c = '\r'

/-- A text without its sign, and whether that is negative. -/
def sign : List Char → Bool × List Char
  | '-' :: cs => (true, cs)
  | '+' :: cs => (false, cs)
  | cs => (false, cs)

/-- The value of a row of digits. -/
def digitsValue (cs : List Char) : Nat :=
  cs.foldl (fun n c => 10 * n + (c.toNat - '0'.toNat)) 0

/-- The value of the digits of an exponent. Past five digits it is ten thousand, as large as any
for a float. -/
def exponentValue (cs : List Char) : Nat :=
  cs.foldl (fun n c => if n < 10000 then digitsValue [c] + 10 * n else 10000) 0

/-- The exponent that a text is, the text starting with its mark; nothing is an exponent of
zero. -/
def exponent? : List Char → Option Int
  | [] => some 0
  | c :: cs =>
    let (negative, digits) := sign cs
    if (c = 'e' || c = 'E') && !digits.isEmpty && digits.all Char.isDigit then
      some (if negative then -exponentValue digits else exponentValue digits)
    else none

/-- The numeral that a text is. -/
def ofText? (s : String) : Option Numeral :=
  let blankless := (s.toList.dropWhile isBlank).reverse.dropWhile isBlank |>.reverse
  let (negative, cs) := sign blankless
  let whole := cs.takeWhile Char.isDigit
  let rest := cs.dropWhile Char.isDigit
  let (fraction, hasPoint, rest) := match rest with
    | '.' :: more => (more.takeWhile Char.isDigit, true, more.dropWhile Char.isDigit)
    | _ => ([], false, rest)
  if whole.isEmpty && fraction.isEmpty then none
  else
    match exponent? rest with
    | some e => some ⟨negative, whole, fraction, e, !hasPoint && rest.isEmpty⟩
    | none => none

/-- A significand that takes no further digits, so that it stays within 64 bits. -/
def fullSignificand : Nat := (UInt64.size - 10) / 10

/-- Appends the digits before a point to a significand. Once it is full the others only count as
places, the second part. -/
def takeWhole : Nat → List Char → Nat × Nat
  | significand, [] => (significand, 0)
  | significand, c :: cs =>
    let next := digitsValue [c] + 10 * significand
    if fullSignificand ≤ next then (next, cs.length) else takeWhole next cs

/-- Appends the digits after a point to a significand while it is not full; the second part is
their count. -/
def takeFraction : Nat → List Char → Nat × Nat
  | significand, [] => (significand, 0)
  | significand, c :: cs =>
    if significand < fullSignificand then
      let (significand, places) := takeFraction (digitsValue [c] + 10 * significand) cs
      (significand, places + 1)
    else (significand, 0)

/-- The float of a numeral. -/
def float (n : Numeral) : Float :=
  let (whole, dropped) := takeWhole 0 n.whole
  let (significand, places) := takeFraction whole n.fraction
  let magnitude := Expansion.read ⟨significand, n.exponent + Int.ofNat dropped - Int.ofNat places⟩
  if n.negative then -magnitude else magnitude

/-- The number that a numeral is: exact if it is whole and fits, else a float. -/
def number (n : Numeral) : Number :=
  let magnitude : Int := digitsValue n.whole
  let value := if n.negative then -magnitude else magnitude
  if n.isWhole && Int64.minValue.toInt ≤ value && value ≤ Int64.maxValue.toInt then
    .int (Int64.ofInt value)
  else .real n.float

end Numeral

/-- The whole number that a float is, if it is one strictly within 64 bits. -/
def wholeOfFloat? (x : Float) : Option Int64 := do
  let b ← Binary.ofFloat? x
  let n ← b.toInt?
  if Int64.minValue.toInt < n && n < Int64.maxValue.toInt then some (Int64.ofInt n) else none

/-! ## Numbers as text -/

/-- Floats in text always have a point, and an exponent of at least two digits when the leading
digit is worth less than `10 ^ -4` or more than `10 ^ 14`. -/
def textLayout : Layout where
  halfway := .away
  positional lead := -4 ≤ lead && lead ≤ 14
  keepsPoint := true
  pointBeforeExponent := true
  plusSign := true
  exponentWidth := 2

/-- The text of a float. -/
def floatText (x : Float) : String :=
  match Binary.ofFloat? x with
  | none => if x < 0 then "-Inf" else "Inf"
  | some b =>
    let digits := textLayout.expansionText (Expansion.leading 15 b)
    if b.negative && b.mantissa ≠ 0 then "-" ++ digits else digits

end Tabula.Store
