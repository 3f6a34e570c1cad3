import Tabula.Json.Basic
import Tabula.Json.Decoder

/-!
# Values of rows and filters

A value is what a field of a row holds or what a filter compares a column with. Values are read
from JSON (an object has no value, at any depth) and shown to people as plain text.
-/

namespace Tabula

/-- A value. -/
inductive Value where
  | null
  | bool (b : Bool)
  | int (n : Int64)
  | float (x : Float)
  | string (s : String)
  | list (items : List Value)
  deriving Repr, Inhabited, BEq

namespace Value

/-! ## Kinds -/

/-- The name of a value's type. -/
def typeName : Value → String
  | null => "null"
  | bool _ => "bool"
  | int _ => "int"
  | float _ => "float"
  | string _ => "string"
  | list _ => "list"

/-- Whether a value is null. -/
def isNull : Value → Bool
  | null => true
  | _ => false

/-- Whether a value is a list. -/
def isList : Value → Bool
  | list _ => true
  | _ => false

/-- The whole number that a value is. -/
def int? : Value → Option Int64
  | int n => some n
  | _ => none

/-- The string that a value is. -/
def string? : Value → Option String
  | string s => some s
  | _ => none

@[simp] theorem isNull_iff {v : Value} : v.isNull = true ↔ v = null := by
  cases v <;> simp [isNull]

/-! ## JSON -/

/-- A JSON number without a point: exact within 64 bits, else the nearest float. -/
def ofInt (n : Int) : Value :=
  if Int64.minValue.toInt ≤ n && n ≤ Int64.maxValue.toInt then int (Int64.ofInt n)
  else if 0 ≤ n then float n.toNat.toUInt64.toFloat
  else float (Float.ofInt n)

mutual

/-- The value of a JSON value; there is none if it has an object in it. -/
def ofJson? : Json → Option Value
  | .null => some null
  | .bool b => some (bool b)
  | .int n => some (ofInt n)
  | .float x => some (float x)
  | .string s => some (string s)
  | .array items => list <$> ofJsonItems? items
  | .object _ => none

/-- The values of the items of an array. -/
def ofJsonItems? : List Json → Option (List Value)
  | [] => some []
  | item :: items => do
    let v ← ofJson? item
    return v :: (← ofJsonItems? items)

end

mutual

/-- A value as JSON. -/
def toJson : Value → Json
  | null => .null
  | bool b => .bool b
  | int n => .int n.toInt
  | float x => .float x
  | string s => .string s
  | list items => .array (itemsToJson items)

/-- The items of a list as JSON. -/
def itemsToJson : List Value → List Json
  | [] => []
  | item :: items => toJson item :: itemsToJson items

end

/-- The values that are no lists, in the order in which they are tried. A whole number is tried
before a float, so that it is kept exactly where it can be. -/
def scalarDecoders : List (Json.Decoder Value) := [
  .map (fun _ => null) .unit, .map bool .boolean, .map int .integer, .map float .real,
  .map string .string]

mutual

/-- The value of a document whose kind is not told: that of the first alternative that fits, the last
of which is a list of values. -/
def ofDocument? (document : Json.Document) : Option Value :=
  Json.Decoder.firstOf? scalarDecoders document <|>
    match document with
    | .array items => list <$> ofDocuments? items
    | _ => none

/-- The values of the items of an array. -/
def ofDocuments? : List Json.Document → Option (List Value)
  | [] => some []
  | item :: items => do
    let v ← ofDocument? item
    return v :: (← ofDocuments? items)

end

/-- Reads a value from a document. The document is read as a whole before any alternative is tried. -/
def decoder : Json.Decoder Value
  | _, document => do
    let json ← document.toJson.mapError .fault
    match ofDocument? (.ofJson json) with
    | some v => return v
    | none => throw (.noAlternative "Value")

/-! ## Text -/

/-- Numbers shown to people have no exponent, and whole ones no point. -/
def shownNumber : Decimal.Layout where
  halfway := .away
  positional _ := true
  keepsPoint := false
  pointBeforeExponent := false
  plusSign := false
  exponentWidth := 1

mutual

/-- The text of a value for people. -/
def text : Value → String
  | null => "NULL"
  | bool b => if b then "true" else "false"
  | int n => toString n.toInt
  | float x => shownNumber.text x
  | string s => s
  | list items => "[" ++ ", ".intercalate (itemTexts items) ++ "]"

/-- The texts of the items of a list. -/
def itemTexts : List Value → List String
  | [] => []
  | item :: items => text item :: itemTexts items

end

end Value

/-- The values of a row's columns, by column name. -/
abbrev RowValues := Assoc Value

end Tabula
