import Tabula.Catalog.Document
import Tabula.Database.Batch
import Tabula.Report.Grid

/-!
# Formats

Answers are reported as grids and sentences for people, or as JSON.
-/

namespace Tabula

/-- How answers are reported. -/
inductive Format where
  | table
  | json
  deriving DecidableEq, Repr

namespace Format

/-- The name of a format. -/
def name : Format → String
  | table => "table"
  | json => "json"

/-- The format of a name. -/
def ofName? (s : String) : Option Format :=
  [table, json].find? fun f => f.name = s

/-! ## Sentences and grids -/

/-- New keys as a sentence. -/
def keysText (keys : List Value) : String :=
  let listed := ", ".intercalate (keys.map Value.text)
  s!"created {keys.length} row(s): {listed}"

/-- A count of changed rows as a sentence. -/
def countText (n : Nat) : String := s!"{n} row(s) affected"

/-- Rows as a grid, headed by the labels of the first. -/
def rowsText : List ResultRow → String
  | [] => "No results"
  | first :: rest =>
    let rows := first :: rest
    let grid : Grid :=
      ⟨first.map ResultField.label, rows.map fun row => row.map fun f => f.value.text⟩
    let drawing := grid.draw
    s!"{drawing}\n{rows.length} row(s)"

/-- The answer to a command at a position of a batch. -/
def commandText (index : Nat) : CommandAnswer → String
  | .keys keys => s!"[{index}] " ++ keysText keys
  | .count n => s!"[{index}] " ++ countText n

/-- An answer for people. -/
def answerText : Answer → String
  | .keys keys => keysText keys
  | .rows rows => rowsText rows
  | .count n => countText n
  | .batch answers => "\n".intercalate (answers.zipIdx.map fun (a, i) => commandText i a)

/-- A catalog as a grid with a row for each table. -/
def catalogText (c : Catalog) : String :=
  let columns (t : Table) := ", ".intercalate (t.columns.map fun c => c.name ++ ": " ++ c.type.name)
  let key (t : Table) := (t.primaryKey?.map Column.name).getD "-"
  Grid.draw ⟨["Table", "Columns", "Primary key"], c.tables.map fun t => [t.name, columns t, key t]⟩

/-! ## JSON -/

/-- A result row as an object, its fields in order. -/
def rowToJson (row : ResultRow) : Json :=
  .object (row.map fun f => (f.label, f.value.toJson))

/-- The answer to a command as JSON. -/
def commandToJson : CommandAnswer → Json
  | .keys keys => .array (keys.map Value.toJson)
  | .count n => .int n

/-- An answer as JSON. -/
def answerToJson : Answer → Json
  | .keys keys => .array (keys.map Value.toJson)
  | .rows rows => .array (rows.map rowToJson)
  | .count n => .int n
  | .batch answers => .array (answers.map commandToJson)

/-! ## Reports -/

/-- An answer in a format. -/
def answer : Format → Answer → String
  | table, a => answerText a
  | json, a => (answerToJson a).indented

/-- An error message in a format. -/
def error : Format → String → String
  | table, message => s!"Error: {message}"
  | json, message => (Json.object [("error", .string message)]).compact

/-- A catalog in a format. -/
def catalog : Format → Catalog → String
  | table, c => catalogText c
  | json, c => c.toJson.indented

end Format

end Tabula
