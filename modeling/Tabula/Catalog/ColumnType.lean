import Tabula.Value

/-!
# Column types

What a column may hold, and how the store declares it.
-/

namespace Tabula

/-- The type of a column. -/
inductive ColumnType where
  | string
  | int
  | float
  | bool
  | timestamp
  deriving DecidableEq, Repr

namespace ColumnType

/-- All column types. -/
def all : List ColumnType := [string, int, float, bool, timestamp]

/-- The name of a type in catalogs. -/
def name : ColumnType → String
  | string => "string"
  | int => "int"
  | float => "float"
  | bool => "bool"
  | timestamp => "timestamp"

/-- The type name in table definitions. -/
def sqlType : ColumnType → String
  | string => "TEXT"
  | int => "INTEGER"
  | float => "REAL"
  | bool => "BOOLEAN"
  | timestamp => "INTEGER"

/-- Whether a primary key may have this type. -/
def isKeyType : ColumnType → Bool
  | string | int => true
  | _ => false

/-- Whether a column of this type takes a value. Null is decided by the column, not its type. -/
def accepts : ColumnType → Value → Bool
  | _, .null => true
  | string, .string _ => true
  | int, .int _ => true
  | timestamp, .int _ => true
  | float, .int _ => true
  | float, .float _ => true
  | bool, .bool _ => true
  | _, _ => false

/-- Reads a type from a document. -/
def decoder : Json.Decoder ColumnType :=
  Json.Decoder.variant (all.map fun t => (⟨t.name, []⟩, .nothing t))

@[simp] theorem accepts_null (t : ColumnType) : t.accepts .null = true := by
  cases t <;> rfl

@[simp] theorem accepts_list (t : ColumnType) (items : List Value) :
    t.accepts (.list items) = false := by
  cases t <;> rfl

end ColumnType

end Tabula
