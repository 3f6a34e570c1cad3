import Tabula.Catalog.Basic

/-!
# Keys for new rows

Rows that come without a key get one from a key source: the next number of a sequence, or random
bits. A table with a string key gets the number's decimal text, or the random bits in the form of a
version 4 identifier. The sequence wraps around at the ends of its 64 bits.
-/

namespace Tabula

/-! ## Random bits -/

/-- The state of a generator of random bits. -/
structure Entropy where
  state : UInt64
  deriving DecidableEq, Repr

namespace Entropy

/-- The next 64 bits. -/
def next (e : Entropy) : UInt64 × Entropy :=
  let state := e.state + 0x9e3779b97f4a7c15
  let z := (state ^^^ (state >>> 30)) * 0xbf58476d1ce4e5b9
  let z := (z ^^^ (z >>> 27)) * 0x94d049bb133111eb
  (z ^^^ (z >>> 31), ⟨state⟩)

end Entropy

/-! ## Identifiers -/

/-- An identifier of 128 bits. -/
structure Identifier where
  high : UInt64
  low : UInt64
  deriving DecidableEq, Repr

namespace Identifier

/-- Random bits marked as a version 4 identifier. -/
def ofRandom (high low : UInt64) : Identifier :=
  ⟨(high &&& 0xffffffffffff0fff) ||| 0x4000, (low &&& 0x3fffffffffffffff) ||| 0x8000000000000000⟩

/-- The sixteen hexadecimal digits of 64 bits. -/
def hexDigits (n : UInt64) : List Char :=
  let digits := Nat.toDigits 16 n.toNat
  List.replicate (16 - digits.length) '0' ++ digits

/-- The identifier as text: groups of 8, 4, 4, 4 and 12 digits. -/
def text (i : Identifier) : String :=
  let digits := hexDigits i.high ++ hexDigits i.low
  let groups := [(0, 8), (8, 4), (12, 4), (16, 4), (20, 12)]
  "-".intercalate (groups.map fun (start, count) => String.ofList ((digits.drop start).take count))

/-- The first `bits` bits as a number; at most 63 of them. -/
def leading (i : Identifier) (bits : Nat) : Int64 :=
  Int64.ofNat (i.high.toNat >>> (64 - bits))

end Identifier

/-! ## Key generators -/

/-- What keys can be drawn from: it gives a key for a table, or fails, and moves on either way. -/
class KeyGenerator (Keys : Type) where
  draw : Keys → Table → Except Error Value × Keys

/-! ## Key sources -/

/-- How keys are to be made. -/
inductive KeyStrategy where
  | none
  | uuid (bits : Nat)
  | sequence (start : Int64)
  deriving DecidableEq, Repr

/-- The widest random key. -/
def KeyStrategy.maxBits : Nat := 63

/-- A source of keys with its state. -/
inductive KeySource where
  | uuid (bits : Nat) (entropy : Entropy)
  | sequence (next : Int64)
  deriving Repr

namespace KeySource

/-- The sequence that a database is given without further choice. -/
def standard : KeySource := .sequence 1

/-- The source of a strategy; without a strategy there is none. -/
def ofStrategy (entropy : Entropy) : KeyStrategy → Except Error (Option KeySource)
  | .none => .ok Option.none
  | .uuid bits =>
    if 1 ≤ bits && bits ≤ KeyStrategy.maxBits then .ok (some (.uuid bits entropy))
    else .error (.config (.idWidth bits))
  | .sequence start => .ok (some (.sequence start))

/-- A number as the key of a table: as text for a string key. -/
def keyOfInt (type : ColumnType) (n : Int64) : Value :=
  if type = .string then .string (toString n.toInt) else .int n

/-- Draws a key for a table. The source moves on even when the table has no key. -/
def draw (source : KeySource) (t : Table) : Except Error Value × KeySource :=
  let key? := t.primaryKey?.map Column.type
  let noKey : Except Error Value := .error (.schema (.noPrimaryKey t.name))
  match source with
  | .sequence next =>
    (match key? with
      | some type => .ok (keyOfInt type next)
      | none => noKey, .sequence (next + 1))
  | .uuid bits entropy =>
    let (high, entropy) := entropy.next
    let (low, entropy) := entropy.next
    let identifier := Identifier.ofRandom high low
    (match key? with
      | some .string => .ok (.string identifier.text)
      | some _ => .ok (.int (identifier.leading bits))
      | none => noKey, .uuid bits entropy)

instance : KeyGenerator KeySource := ⟨draw⟩

end KeySource

end Tabula
