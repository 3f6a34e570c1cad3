import Tabula.Catalog.Basic

/-!
# Catalog documents

The JSON form of a catalog: a record with the list of tables. Fields with a default may be left
out when a document is read, and all of them are written.
-/

namespace Tabula

open Json

/-! ## Reading -/

namespace Default

/-- Reads a default from a document. -/
def decoder : Decoder Default :=
  .variant [
    (⟨"value", []⟩, .one (Decoder.map Default.value Value.decoder)),
    (⟨"current_timestamp", []⟩, .nothing .currentTimestamp)]

/-- A default as JSON. -/
def toJson : Default → Json
  | .value v => .object [("value", v.toJson)]
  | .currentTimestamp => .string "current_timestamp"

end Default

namespace Column

/-- Makes a column from its fields. -/
def ofFields (name : String) (type : ColumnType) (nullable isKey isUnique : Bool)
    (default? : Option Default) : Column :=
  { name, type, nullable, isKey, isUnique, default? }

/-- Reads a column from a document. -/
def decoder : Decoder Column :=
  Fields.record "ColumnDef" false <|
    ofFields <$> .required ⟨"name", []⟩ .string <*> .required ⟨"type", []⟩ ColumnType.decoder
      <*> .orElse ⟨"nullable", []⟩ .boolean false <*> .orElse ⟨"primary_key", []⟩ .boolean false
      <*> .orElse ⟨"unique", []⟩ .boolean false <*> .optional ⟨"default", []⟩ Default.decoder

/-- A column as JSON. -/
def toJson (c : Column) : Json :=
  .object [("name", .string c.name), ("type", .string c.type.name), ("nullable", .bool c.nullable),
    ("primary_key", .bool c.isKey), ("unique", .bool c.isUnique),
    ("default", match c.default? with | some d => d.toJson | none => .null)]

end Column

namespace UniqueConstraint

/-- Reads a constraint from a document. -/
def decoder : Decoder UniqueConstraint :=
  Fields.record "UniqueConstraint" false <|
    UniqueConstraint.mk <$> .required ⟨"name", []⟩ .string
      <*> .required ⟨"columns", []⟩ (.list .string)

/-- A constraint as JSON. -/
def toJson (u : UniqueConstraint) : Json :=
  .object [("name", .string u.name), ("columns", .array (u.columns.map .string))]

end UniqueConstraint

namespace Table

/-- Reads a table from a document. -/
def decoder : Decoder Table :=
  Fields.record "TableDef" false <|
    Table.mk <$> .required ⟨"name", []⟩ .string
      <*> .required ⟨"columns", []⟩ (.list Column.decoder)
      <*> .orElse ⟨"unique", []⟩ (.list UniqueConstraint.decoder) []

/-- A table as JSON. -/
def toJson (t : Table) : Json :=
  .object [("name", .string t.name), ("columns", .array (t.columns.map Column.toJson)),
    ("unique", .array (t.unique.map UniqueConstraint.toJson))]

end Table

namespace Catalog

/-- Reads the tables of a catalog document. -/
def decoder : Decoder (List Table) :=
  Fields.record "CatalogDocument" true (id <$> .required ⟨"tables", []⟩ (.list Table.decoder))

/-- The catalog of a document's text. -/
def ofText (text : String) : Except Error Catalog := do
  match decoder.ofText text with
  | .ok tables => build tables
  | .error e => throw (.config (.schemaDocument e))

/-- The tables of a catalog as JSON. -/
def toJson (c : Catalog) : Json :=
  .array (c.tables.map Table.toJson)

end Catalog

end Tabula
