import Tabula.Error
import Tabula.Store.Cell

/-!
# Relations

A stored table: its columns, its unique indexes and its rows in ascending order of row id. Names
are compared without regard to the case of ASCII letters. Every table has a row id, which is a
column of its own or goes by reserved names. A row that is added or changed is checked, in this
order, for null in a required column, for its row id, and at each index.
-/

namespace Tabula.Store

/-! ## Names -/

/-- Whether two names are the same name. -/
def sameName (a b : String) : Bool :=
  a.toList.map Char.toLower = b.toList.map Char.toLower

/-- The names of the row id where no column has them. -/
def rowIdNames : List String := ["rowid", "oid", "_rowid_"]

/-! ## Data -/

/-- What a column is set to when a row leaves it out. -/
inductive Filler where
  | cell (c : Cell)
  | currentTime
  deriving Repr

/-- A stored column. -/
structure Field where
  name : String
  affinity : Affinity
  notNull : Bool
  filler : Filler
  deriving Repr

/-- A term of an index: a column by position, or a constant. -/
inductive IndexTerm where
  | column (position : Nat)
  | constant (c : Cell)
  deriving DecidableEq, Repr

/-- A unique index. One that belongs to a column's own declaration has no name. -/
structure Index where
  name : Option String
  terms : List IndexTerm
  deriving Repr

/-- A stored row. -/
structure Row where
  id : Int64
  cells : List Cell
  deriving DecidableEq, Repr

/-- A stored table. -/
structure Relation where
  name : String
  fields : List Field
  /-- The position of the column that is the row id. -/
  idField : Option Nat
  /-- The unique indexes, the newest first. -/
  indexes : List Index
  rows : List Row
  deriving Repr

/-- What a column name means in a table: the row id, or a column that is stored beside it. -/
inductive Slot where
  | rowId
  | field (position : Nat)
  deriving DecidableEq, Repr

namespace Row

/-- The cell of a column by position. -/
def cell (r : Row) (position : Nat) : Cell := r.cells[position]?.getD .null

/-- The cell of a slot. -/
def cellOf (r : Row) : Slot → Cell
  | .rowId => .int r.id
  | .field position => r.cell position

end Row

namespace Relation

/-- The position of a column. -/
def position? (rel : Relation) (column : String) : Option Nat :=
  rel.fields.findIdx? fun f => sameName f.name column

/-- The slot of a column by position. -/
def slotAt (rel : Relation) (position : Nat) : Slot :=
  if rel.idField = some position then .rowId else .field position

/-- The slot that a column has under its own name. -/
def declared? (rel : Relation) (column : String) : Option Slot :=
  (rel.position? column).map rel.slotAt

/-- The slot of a name: that of a column, else the row id under one of its reserved names. -/
def slot? (rel : Relation) (name : String) : Option Slot :=
  match rel.declared? name with
  | some slot => some slot
  | none => if rowIdNames.any (sameName name) then some .rowId else none

/-- The affinity of a slot. -/
def affinity (rel : Relation) : Slot → Affinity
  | .rowId => .integer
  | .field position => (rel.fields[position]?.map Field.affinity).getD .numeric

/-- The name of a column by position. -/
def fieldName (rel : Relation) (position : Nat) : String :=
  (rel.fields[position]?.map Field.name).getD ""

/-- The name of the row id. -/
def idName (rel : Relation) : String :=
  match rel.idField with
  | some position => rel.fieldName position
  | none => "rowid"

/-! ## Uniqueness -/

/-- What a row has at an index. -/
def key (terms : List IndexTerm) (r : Row) : List Cell :=
  terms.map fun
    | .column i => r.cell i
    | .constant c => c

/-- Whether two rows have the same key, which a null in it prevents. -/
def sameKey (terms : List IndexTerm) (a b : Row) : Bool :=
  let ka := key terms a
  !ka.any Cell.isNull && (ka.zip (key terms b)).all fun (x, y) => x.same y

/-- The error of a row that has the key of another. -/
def duplicateKey (rel : Relation) (i : Index) : Error :=
  let columns := i.terms.mapM fun
    | .column position => some (rel.name, rel.fieldName position)
    | .constant _ => none
  match columns with
  | some columns => .database (.notUnique columns)
  | none => .database (.notUniqueIndex (i.name.getD ""))

/-- The error of a row that has the id of another. -/
def duplicateId (rel : Relation) : Error :=
  .database (.notUnique [(rel.name, rel.idName)])

/-- Checks the columns of a row that may not be null. -/
def checkPresent (rel : Relation) (r : Row) : Except Error Unit :=
  match (rel.fields.zip r.cells).find? fun (f, c) => f.notNull && c.isNull with
  | some (f, _) => .error (.database (.missingValue rel.name f.name))
  | none => .ok ()

/-- Checks a row against the indexes and other rows. -/
def checkKeys (rel : Relation) (others : List Row) (r : Row) : Except Error Unit :=
  match rel.indexes.find? fun i => others.any (sameKey i.terms r) with
  | some i => .error (rel.duplicateKey i)
  | none => .ok ()

/-- Checks that a row can stand beside others. -/
def checkRow (rel : Relation) (others : List Row) (r : Row) : Except Error Unit := do
  rel.checkPresent r
  if others.any fun other => other.id = r.id then throw rel.duplicateId
  rel.checkKeys others r

end Relation

end Tabula.Store
