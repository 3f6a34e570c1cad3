import Tabula.Catalog.ColumnType
import Tabula.Logic.Truth
import Tabula.Store.Numeric

/-!
# Cells

What the store keeps in a column, the order between cells, and the conversions that a column's
affinity brings about when a value is stored in it or compared with it.
-/

namespace Tabula

/-- The content of one column of a row. -/
inductive Cell where
  | null
  | int (n : Int64)
  | real (x : Float)
  | text (s : String)
  deriving DecidableEq, Repr

namespace Cell

/-- Whether a cell is null. -/
def isNull : Cell → Bool
  | null => true
  | _ => false

/-! ## Values -/

/-- The cell that a float is bound as; what is not a number is null. -/
def ofFloat (x : Float) : Cell := if x.isNaN then null else real x

/-- The cell that a value is bound as; a list has none. -/
def ofValue? : Value → Option Cell
  | .null => some null
  | .bool b => some (int (if b then 1 else 0))
  | .int n => some (int n)
  | .float x => some (ofFloat x)
  | .string s => some (text s)
  | .list _ => none

/-- The float of a whole number. -/
def floatOfInt (n : Int64) : Float := Float.ofInt n.toInt

/-- The value of a cell in a column of a catalog type. -/
def toValue (type : ColumnType) : Cell → Value
  | null => .null
  | int n =>
    match type with
    | .bool => .bool (n ≠ 0)
    | .float => .float (floatOfInt n)
    | _ => .int n
  | real x => .float x
  | text s => .string s

/-! ## Order -/

/-- Whether a float that is no fraction lies below all numbers; the other one lies above. -/
def isBelowAll (x : Float) : Bool := x.toBits.toNat >>> 63 = 1

/-- The order of a whole number and a float, without rounding. -/
def compareIntReal (n : Int64) (x : Float) : Ordering :=
  match Decimal.Binary.ofFloat? x with
  | some b => b.compareInt n.toInt
  | none => if isBelowAll x then .gt else .lt

/-- The order of two floats. -/
def compareReal (x y : Float) : Ordering :=
  match Decimal.Binary.ofFloat? x, Decimal.Binary.ofFloat? y with
  | some a, some b => a.compareTo b
  | some _, none => if isBelowAll y then .gt else .lt
  | none, some _ => if isBelowAll x then .lt else .gt
  | none, none => Ord.compare (!isBelowAll x) (!isBelowAll y)

/-- The order of cells: null, then numbers by value, then text by code point. -/
def compare : Cell → Cell → Ordering
  | null, null => .eq
  | null, _ => .lt
  | _, null => .gt
  | int a, int b => Ord.compare a b
  | int a, real x => compareIntReal a x
  | real x, int a => (compareIntReal a x).swap
  | real x, real y => compareReal x y
  | text s, text t => Ord.compare s t
  | text _, _ => .gt
  | _, text _ => .lt

/-- Whether two cells are equal; nulls are equal to each other only. -/
def same (a b : Cell) : Bool := compare a b = .eq

/-! ## Conversions -/

/-- Text that is a numeral becomes the number. -/
def toNumber : Cell → Cell
  | text s =>
    match Store.Numeral.ofText? s with
    | some n =>
      match n.number with
      | .int n => int n
      | .real x => real x
    | none => text s
  | c => c

/-- A float that is a whole number becomes one. -/
def toWhole : Cell → Cell
  | real x =>
    match Store.wholeOfFloat? x with
    | some n => int n
    | none => real x
  | c => c

/-- A number becomes a float. Negative zero is kept as zero. -/
def toReal : Cell → Cell
  | int n => real (floatOfInt n)
  | real x => if x == 0 then real 0 else real x
  | c => c

/-- A number becomes its text. -/
def toText : Cell → Cell
  | int n => text (toString n.toInt)
  | real x => text (Store.floatText x)
  | c => c

/-- The characters of a cell up to the first zero character, as patterns see them. -/
def characters? (c : Cell) : Option (List Char) :=
  match c.toText with
  | text s => some (s.toList.takeWhile (· ≠ '\x00'))
  | _ => none

end Cell

/-! ## Affinity -/

/-- What a column prefers its cells to be. -/
inductive Affinity where
  | text
  | integer
  | real
  | numeric
  deriving DecidableEq, Repr

namespace Affinity

/-- The affinity of a declared type. -/
def ofType : String → Affinity
  | "TEXT" => text
  | "INTEGER" => integer
  | "REAL" => real
  | _ => numeric

/-- Whether an affinity prefers numbers. -/
def isNumeric : Affinity → Bool
  | text => false
  | _ => true

/-- A cell as it is stored. -/
def store : Affinity → Cell → Cell
  | text, c => c.toText
  | integer, c => c.toNumber.toWhole
  | numeric, c => c.toNumber.toWhole
  | real, c => c.toNumber.toReal

/-- Two cells as they are compared. A numeric column turns text into numbers; a text column turns
numbers into text, unless the other side is a column too. -/
def meet (left right : Option Affinity) (a b : Cell) : Cell × Cell :=
  match left, right with
  | none, none => (a, b)
  | some l, none | none, some l =>
    if l.isNumeric then (a.toNumber, b.toNumber) else (a.toText, b.toText)
  | some l, some r => if l.isNumeric || r.isNumeric then (a.toNumber, b.toNumber) else (a, b)

end Affinity

end Tabula
