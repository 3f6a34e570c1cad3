import Tabula.Store.Change
import Tabula.Store.Contents
import Tabula.Store.Limit

/-!
# The store

The stored tables, their table of contents, the id of the row that was added last, and the time.
Definitions create tables and indexes unless their name is in use.
-/

namespace Tabula

open Store (Relation Field Filler Index IndexTerm Entry sameName)

/-- A value as its literal reads. A float is the number that its numeral reads as; one without a
numeral is written as a word, which reads as a text. -/
def Value.readBack : Value → Value
  | .float x =>
    let spelled := Sql.numberLayout.text x
    match Store.Numeral.ofText? spelled with
    | some n => .float n.float
    | none => .string spelled
  | v => v

namespace Store

/-- What can be done with a store. -/
inductive Standing where
  | writable
  | readOnly
  /-- Nothing: what was opened is no store. -/
  | foreign
  deriving DecidableEq, Repr

end Store

/-- A store. -/
structure Store where
  relations : List Relation
  /-- The table of contents. -/
  entries : List Entry
  lastId : Int64
  now : Int64
  standing : Store.Standing := .writable
  deriving Repr

namespace Store

/-- A store without tables. -/
def empty (now : Int64) : Store where
  relations := []
  entries := []
  lastId := 0
  now := now

/-! ## Tables -/

/-- Checks that there is a store at all. -/
def checkSound (s : Store) : Except Error Unit :=
  if s.standing = .foreign then .error (.storage .notDatabase) else .ok ()

/-- Checks that a store can be changed. -/
def checkWritable (s : Store) : Except Error Unit :=
  if s.standing = .writable then .ok () else .error (.storage .readOnly)

/-- The stored table of a name. -/
def relation? (s : Store) (name : String) : Option Relation :=
  s.relations.find? fun rel => sameName rel.name name

/-- What can be read under a name: a stored table, or the table of contents. -/
def readable (s : Store) (name : String) : Except Error Relation := do
  s.checkSound
  match (s.relation? name).or (Contents.relation? s.entries name) with
  | some rel => return rel
  | none => throw (.storage (.unknownTable name))

/-- The stored table of a name, to be changed. The table of contents only changes with the tables
and indexes it lists. -/
def changeable (s : Store) (name : String) : Except Error Relation := do
  let rel ← s.readable name
  if (s.relation? name).isNone then throw (.storage (.fixedTable rel.name))
  s.checkWritable
  return rel

/-- Replaces a stored table. -/
def replace (s : Store) (rel : Relation) : Store :=
  { s with relations := s.relations.map fun old => if sameName old.name rel.name then rel else old }

/-! ## Defined tables -/

/-- Whether a name is kept for the store's own tables. -/
def isReserved (name : String) : Bool :=
  "sqlite_".toList.isPrefixOf (name.toList.map Char.toLower)

/-- Whether an index has a name. -/
def hasIndex (s : Store) (name : String) : Bool :=
  s.relations.any fun rel => rel.indexes.any fun i =>
    match i.name with
    | some n => sameName n name
    | none => false

/-- The cell of a default value is that of what its literal reads as. -/
def defaultCell (v : Value) : Cell := (Cell.ofValue? v.readBack).getD .null

/-- What a default literal fills a column with. -/
def filler : Option Sql.Literal → Filler
  | none => .cell .null
  | some (.value v) => .cell (defaultCell v)
  | some .currentTime => .currentTime

/-- A defined column as it is stored. -/
def field (c : Sql.ColumnDefinition) : Field :=
  ⟨c.name, .ofType c.type, c.notNull, filler c.default?⟩

/-- Whether a defined column is the row id. -/
def isIdColumn (c : Sql.ColumnDefinition) : Bool :=
  c.isKey && c.type = "INTEGER"

/-- The indexes that the columns of a table declare for themselves, in column order. -/
def ownIndexes (columns : List Sql.ColumnDefinition) : List Index :=
  columns.zipIdx.filterMap fun (c, i) =>
    if c.isUnique || (c.isKey && !isIdColumn c) then some ⟨none, [.column i]⟩ else none

/-- A defined table without rows. -/
def relationOf (name : String) (columns : List Sql.ColumnDefinition) : Relation where
  name := name
  fields := columns.map field
  idField := columns.findIdx? isIdColumn
  indexes := (ownIndexes columns).reverse
  rows := []

/-- The store with a new table. -/
def addTable (s : Store) (name : String) (d : Sql.Definition)
    (columns : List Sql.ColumnDefinition) : Store :=
  let rel := relationOf name columns
  { s with
    relations := s.relations ++ [rel]
    entries := s.entries ++ Contents.ofTable name d rel.indexes.length }

/-! ## Defined indexes -/

/-- The term of an index: a name that is no column is a constant text. -/
def indexTerm (rel : Relation) (column : String) : IndexTerm :=
  match rel.position? column with
  | some i => .column i
  | none => .constant (.text column)

/-- Whether the rows of a table differ at an index. -/
def checkIndex (rel : Relation) (i : Index) : List Row → Except Error Unit
  | [] => .ok ()
  | r :: rows =>
    if rows.any (Relation.sameKey i.terms r) then .error (rel.duplicateKey i)
    else checkIndex rel i rows

/-- The store with a new index of a table. -/
def addIndex (s : Store) (rel : Relation) (i : Index) (name : String) (d : Sql.Definition) :
    Store :=
  { s.replace { rel with indexes := i :: rel.indexes } with
    entries := s.entries ++ [Contents.ofIndex name rel.name d] }

/-! ## Definitions -/

/-- Checks that the default of a column can be read. -/
def checkDefault (c : Sql.ColumnDefinition) : Except Error Unit :=
  if c.default?.all Sql.Literal.isReadable then .ok () else .error (.storage .unreadableDefault)

/-- Checks the columns of a table one by one, after those with some names: there may not be too many,
each needs a name of its own, and its default must be one that can be read. -/
def checkColumns (table : String) : List String → List Sql.ColumnDefinition → Except Error Unit
  | _, [] => .ok ()
  | names, c :: columns => do
    checkCount (names.length + 1) maxTerms (.tooManyColumns table)
    if names.any (sameName c.name) then throw (.storage (.duplicateColumn c.name))
    checkDefault c
    checkColumns table (c.name :: names) columns

/-- Carries out a definition. A table that is there already is not made again, but its columns are
still read. -/
def define (s : Store) (d : Sql.Definition) : Except Error Store := do
  checkReadable d.tokens
  s.checkSound
  match d with
  | .table name columns =>
    if isReserved name then throw (.storage (.reservedName name))
    if (s.relation? name).isSome then
      columns.forM checkDefault
      return s
    if s.hasIndex name then throw (.storage (.nameTaken name))
    checkColumns name [] columns
    s.checkWritable
    return s.addTable name d columns
  | .index name owner columns =>
    let some rel := s.relation? owner | throw (.storage (.unknownTable owner))
    if isReserved name then throw (.storage (.reservedName name))
    if (s.relation? name).isSome then throw (.storage (.nameTaken name))
    if s.hasIndex name then return s
    checkCount columns.length maxTerms (.tooManyColumns name)
    s.checkWritable
    let index : Index := ⟨some name, columns.map (indexTerm rel)⟩
    checkIndex rel index rel.rows
    return s.addIndex rel index name d

/-- Carries out definitions in order up to the first that fails. -/
def defineAll (s : Store) : List Sql.Definition → Except Error Unit × Store
  | [] => (.ok (), s)
  | d :: definitions =>
    match s.define d with
    | .ok s => defineAll s definitions
    | .error e => (.error e, s)

end Store

end Tabula
