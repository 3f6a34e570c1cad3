import Tabula.Store.Basic

/-!
# Archives

The bytes in which the tables of a store are kept in a file: a mark that begins no text, then JSON,
with floats as their 64 bits so that every number survives. No bytes at all are a store without
tables.
-/

namespace Tabula.Store

/-! ## Writing -/

/-- A cell as JSON. -/
def cellToJson : Cell → Json
  | .null => .null
  | .int n => .int n.toInt
  | .real x => .object [("bits", .int x.toBits.toNat)]
  | .text s => .string s

/-- The affinities with their names. -/
def affinityNames : List (String × Affinity) :=
  [("text", .text), ("integer", .integer), ("real", .real), ("numeric", .numeric)]

/-- The name of an affinity. -/
def affinityName (a : Affinity) : String :=
  ((affinityNames.find? fun entry => entry.2 = a).map (·.1)).getD ""

/-- What fills a column, as JSON; the current time is an empty array. -/
def fillerToJson : Filler → Json
  | .cell c => cellToJson c
  | .currentTime => .array []

/-- A column as JSON. -/
def fieldToJson (f : Field) : Json :=
  .array [.string f.name, .string (affinityName f.affinity), .bool f.notNull, fillerToJson f.filler]

/-- A term of an index as JSON; a constant stands in an array. -/
def termToJson : IndexTerm → Json
  | .column i => .int i
  | .constant c => .array [cellToJson c]

/-- An index as JSON. -/
def indexToJson (i : Index) : Json :=
  .array [(i.name.map Json.string).getD .null, .array (i.terms.map termToJson)]

/-- A row as JSON: its id, then its cells. -/
def rowToJson (r : Row) : Json :=
  .array (.int r.id.toInt :: r.cells.map cellToJson)

/-- A stored table as JSON. -/
def relationToJson (rel : Relation) : Json :=
  .array [
    .string rel.name,
    .array (rel.fields.map fieldToJson),
    (rel.idField.map fun i => Json.int i).getD .null,
    .array (rel.indexes.map indexToJson),
    .array (rel.rows.map rowToJson)]

/-- An entry of the table of contents as JSON. -/
def entryToJson (e : Entry) : Json :=
  .array [.string e.kind.name, .string e.name, .string e.owner,
    (e.definition.map Json.string).getD .null]

/-- The tables of a store as JSON. -/
def toJson (s : Store) : Json :=
  .object [("entries", .array (s.entries.map entryToJson)),
    ("relations", .array (s.relations.map relationToJson))]

/-- The mark that archives begin with. -/
def archiveMark : List UInt8 := [0xff, 0x54]

/-- The bytes of a store's tables. -/
def archive (s : Store) : ByteArray :=
  if s.relations.isEmpty then .empty
  else ⟨(archiveMark ++ s.toJson.compact.toUTF8.toList).toArray⟩

/-! ## Reading -/

/-- The cell of a JSON value. -/
def cellOfJson? : Json → Option Cell
  | .null => some .null
  | .int n => some (.int (Int64.ofInt n))
  | .object [("bits", .int bits)] => some (.real (Float.ofBits (UInt64.ofNat bits.toNat)))
  | .string s => some (.text s)
  | _ => none

/-- What fills a column, from JSON. -/
def fillerOfJson? : Json → Option Filler
  | .array [] => some .currentTime
  | value => .cell <$> cellOfJson? value

/-- The column of a JSON value. -/
def fieldOfJson? : Json → Option Field
  | .array [.string name, .string affinity, .bool notNull, filler] => do
    return ⟨name, ← affinityNames.lookup affinity, notNull, ← fillerOfJson? filler⟩
  | _ => none

/-- The term of an index, from JSON. -/
def termOfJson? : Json → Option IndexTerm
  | .int i => some (.column i.toNat)
  | .array [value] => .constant <$> cellOfJson? value
  | _ => none

/-- The index of a JSON value. -/
def indexOfJson? : Json → Option Index
  | .array [.null, .array terms] => do return ⟨none, ← terms.mapM termOfJson?⟩
  | .array [.string name, .array terms] => do return ⟨some name, ← terms.mapM termOfJson?⟩
  | _ => none

/-- The row of a JSON value. -/
def rowOfJson? : Json → Option Row
  | .array (.int id :: cells) => do return ⟨Int64.ofInt id, ← cells.mapM cellOfJson?⟩
  | _ => none

/-- The position of the id column, from JSON; null stands for none. -/
def idFieldOfJson? : Json → Option (Option Nat)
  | .null => some none
  | .int i => some (some i.toNat)
  | _ => none

/-- The stored table of a JSON value. -/
def relationOfJson? : Json → Option Relation
  | .array [.string name, .array fields, idField, .array indexes, .array rows] => do
    return {
      name
      fields := ← fields.mapM fieldOfJson?
      idField := ← idFieldOfJson? idField
      indexes := ← indexes.mapM indexOfJson?
      rows := ← rows.mapM rowOfJson? }
  | _ => none

/-- The entry of the table of contents of a JSON value. -/
def entryOfJson? : Json → Option Entry
  | .array [.string kind, .string name, .string owner, definition] => do
    let kind ← [EntryKind.table, .index].find? fun k => k.name = kind
    match definition with
    | .null => some ⟨kind, name, owner, none⟩
    | .string text => some ⟨kind, name, owner, some text⟩
    | _ => none
  | _ => none

/-- The tables of a JSON value, in a store at a time. -/
def ofJson? (now : Int64) : Json → Option Store
  | .object [("entries", .array entries), ("relations", .array relations)] => do
    return { empty now with
      entries := ← entries.mapM entryOfJson?
      relations := ← relations.mapM relationOfJson? }
  | _ => none

/-- The store of an archive at a time. -/
def ofArchive? (now : Int64) (bytes : ByteArray) : Option Store :=
  if bytes.isEmpty then some (empty now)
  else if bytes.toList.take archiveMark.length = archiveMark then do
    let text ← String.fromUTF8? ⟨(bytes.toList.drop archiveMark.length).toArray⟩
    match Json.parse text with
    | .ok json => ofJson? now json
    | .error _ => none
  else none

end Tabula.Store
