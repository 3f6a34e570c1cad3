import Tabula.Json.Basic
import Tabula.Decimal.Layout

/-!
# Writing JSON

Two layouts: compact, without any blanks, and indented by two blanks a level. Fields are written
in the order in which they stand.
-/

namespace Tabula.Json

/-- Numbers have a point or an exponent. The leading digit may be worth from `10 ^ -5` to
`10 ^ 15` for positional writing, and an exponent always has its sign. -/
def numberLayout : Decimal.Layout where
  halfway := .even
  positional lead := -5 ≤ lead && lead ≤ 15
  keepsPoint := true
  pointBeforeExponent := false
  plusSign := true
  exponentWidth := 1

/-- The hexadecimal digit of a value below sixteen. -/
def hexDigit (n : Nat) : Char :=
  if n < 10 then Char.ofNat ('0'.toNat + n) else Char.ofNat ('a'.toNat + n - 10)

/-- A character inside a string. -/
def escape (c : Char) : List Char :=
  match c with
  | '\x22' => ['\x5c', '\x22']
  | '\x5c' => ['\x5c', '\x5c']
  | '\x08' => ['\x5c', 'b']
  | '\x0c' => ['\x5c', 'f']
  | '\n' => ['\x5c', 'n']
  | '\r' => ['\x5c', 'r']
  | '\t' => ['\x5c', 't']
  | c =>
    if c.toNat < 0x20 then ['\x5c', 'u', '0', '0', hexDigit (c.toNat / 16), hexDigit (c.toNat % 16)]
    else [c]

/-- A string in quotes. -/
def quote (s : String) : String :=
  String.ofList ('\x22' :: s.toList.flatMap escape ++ ['\x22'])

/-- The text of a number that is not whole; infinities and not-a-numbers have none. -/
def floatText (x : Float) : String :=
  if x.isFinite then numberLayout.text x else "null"

mutual

/-- A value without blanks. -/
def compact : Json → String
  | null => "null"
  | bool b => if b then "true" else "false"
  | int n => toString n
  | float x => floatText x
  | string s => quote s
  | array items => "[" ++ ",".intercalate (compactItems items) ++ "]"
  | object fields => "\x7b" ++ ",".intercalate (compactFields fields) ++ "\x7d"

/-- The items of an array without blanks. -/
def compactItems : List Json → List String
  | [] => []
  | item :: items => compact item :: compactItems items

/-- The fields of an object without blanks. -/
def compactFields : List (String × Json) → List String
  | [] => []
  | (name, item) :: fields => (quote name ++ ":" ++ compact item) :: compactFields fields

end

/-- A line break and the indentation of a level. -/
def lineBreak (level : Nat) : String :=
  "\n" ++ String.ofList (List.replicate (2 * level) ' ')

/-- Entries between brackets, each on its own line one level deeper. -/
def block (opening closing : String) (level : Nat) (entries : List String) : String :=
  if entries.isEmpty then opening ++ closing
  else
    let body := ",".intercalate (entries.map (lineBreak (level + 1) ++ ·))
    opening ++ body ++ lineBreak level ++ closing

mutual

/-- A value that starts at a level of indentation. -/
def indentedAt (level : Nat) : Json → String
  | array items => block "[" "]" level (indentedItems (level + 1) items)
  | object fields => block "\x7b" "\x7d" level (indentedFields (level + 1) fields)
  | value => compact value

/-- The items of an array, each starting at a level. -/
def indentedItems (level : Nat) : List Json → List String
  | [] => []
  | item :: items => indentedAt level item :: indentedItems level items

/-- The fields of an object, each starting at a level. -/
def indentedFields (level : Nat) : List (String × Json) → List String
  | [] => []
  | (name, item) :: fields =>
    (quote name ++ ": " ++ indentedAt level item) :: indentedFields level fields

end

/-- A value with its entries on lines of their own. -/
def indented (value : Json) : String := indentedAt 0 value

end Tabula.Json
