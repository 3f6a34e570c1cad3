import Tabula.Sql.Definition
import Tabula.Store.Relation

/-!
# The table of contents

The store lists its tables and indexes, in the order in which they were made, in a table that can
be read like any other but not changed. A table is listed before the indexes that its columns
declare for themselves.
-/

namespace Tabula.Store

/-- What an entry stands for. -/
inductive EntryKind where
  | table
  | index
  deriving DecidableEq, Repr

/-- The name of a kind in the table of contents. -/
def EntryKind.name : EntryKind → String
  | .table => "table"
  | .index => "index"

/-- An entry of the table of contents. -/
structure Entry where
  kind : EntryKind
  name : String
  /-- The table that the entry is about. -/
  owner : String
  /-- The definition; an index that a column declares for itself has none. -/
  definition : Option String
  deriving DecidableEq, Repr

namespace Contents

/-- The names of the table of contents. -/
def names : List String := ["sqlite_master", "sqlite_schema"]

/-- The names of the table of contents of what is temporary, where there never is anything. -/
def temporaryNames : List String := ["sqlite_temp_master", "sqlite_temp_schema"]

/-- The columns. -/
def fields : List Field :=
  [⟨"type", .text, false, .cell .null⟩, ⟨"name", .text, false, .cell .null⟩,
    ⟨"tbl_name", .text, false, .cell .null⟩, ⟨"rootpage", .integer, false, .cell .null⟩,
    ⟨"sql", .text, false, .cell .null⟩]

/-- The page that the first entry starts at; every further one has the next page. -/
def firstPage : Nat := 2

/-- The row of the entry at a position. -/
def row (e : Entry) (position : Nat) : Row where
  id := Int64.ofNat (position + 1)
  cells := [.text e.kind.name, .text e.name, .text e.owner,
    .int (Int64.ofNat (firstPage + position)), (e.definition.map Cell.text).getD .null]

/-- The table of contents of some entries. -/
def relation (name : String) (entries : List Entry) : Relation where
  name := name
  fields := fields
  idField := none
  indexes := []
  rows := entries.zipIdx.map fun (e, i) => row e i

/-- The names that a table is called by in a statement: its own, or all those of a table of
contents. -/
def namesOf (name : String) : List String :=
  if names.any (sameName name) then names
  else if temporaryNames.any (sameName name) then temporaryNames
  else [name]

/-- The table of contents under one of its names. -/
def relation? (entries : List Entry) (name : String) : Option Relation :=
  if names.any (sameName name) then some (relation name entries)
  else if temporaryNames.any (sameName name) then some (relation name [])
  else none

/-- The entries of a table and of `count` indexes of its columns. -/
def ofTable (name : String) (definition : Sql.Definition) (count : Nat) : List Entry :=
  ⟨.table, name, name, some definition.unconditionalText⟩ ::
    (List.range count).map fun i => ⟨.index, s!"sqlite_autoindex_{name}_{i + 1}", name, none⟩

/-- The entry of an index that is defined by itself. -/
def ofIndex (name owner : String) (definition : Sql.Definition) : Entry :=
  ⟨.index, name, owner, some definition.unconditionalText⟩

end Contents

end Tabula.Store
