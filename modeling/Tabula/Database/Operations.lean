import Tabula.Database.Basic
import Tabula.Query.Plan

/-!
# Create, read, update and delete

The four operations of a database. Requests are planned before a transaction is entered; a create
request is planned row by row, and keys are drawn as rows are planned.
-/

namespace Tabula

/-- A field of a result row. -/
structure ResultField where
  label : String
  value : Value
  deriving Repr, BEq

/-- A row of a result, its fields in the order of the column list. -/
abbrev ResultRow := List ResultField

namespace ResultRow

/-- The value of the first field with a label. -/
def get? (row : ResultRow) (label : String) : Option Value :=
  (List.find? (fun f => f.label = label) row).map ResultField.value

end ResultRow

namespace Database

variable {Keys : Type}

/-! ## Create -/

/-- A row ready to be added, and its key if that is known before. -/
structure PlannedRow where
  statement : Sql.Insert
  key : Option Value

/-- How often a key is drawn for one row before giving up. -/
def maxDraws : Nat := 16

/-- Draws keys until one is not in use by text; at most `attempts` times. -/
def drawUnused [KeyGenerator Keys] (t : Table) (used : List String) :
    Nat → Keys → Except Error Value × Keys
  | 0, source => (.error (.database (.keysExhausted t.name maxDraws)), source)
  | attempts + 1, source =>
    match KeyGenerator.draw source t with
    | (.ok key, source) =>
      if used.contains key.text then drawUnused t used attempts source else (.ok key, source)
    | (.error e, source) => (.error e, source)

/-- The key that a row brings along. -/
def suppliedKey? (row : RowValues) (key : String) : Option Value :=
  match Assoc.find? row key with
  | some .null => none
  | other => other

/-- What planning rows carries along: the texts of keys in use, and the generator of keys. -/
structure Planning (Keys : Type := KeySource) where
  used : List String
  keys : Option Keys

/-- A row with its key settled: kept, drawn, or left to the store. -/
def settleKey [KeyGenerator Keys] (t : Table) (p : Planning Keys) (row : RowValues) :
    Except Error (RowValues × Option Value) × Planning Keys :=
  match t.primaryKey? with
  | none => (.ok (row, none), p)
  | some column =>
    match suppliedKey? row column.name, p.keys with
    | some key, _ => (.ok (row, some key), p)
    | none, none => (.ok (Assoc.erase row column.name, none), p)
    | none, some source =>
      match drawUnused t p.used maxDraws source with
      | (.ok key, source) =>
        (.ok (Assoc.insert row column.name key, some key), ⟨key.text :: p.used, some source⟩)
      | (.error e, source) => (.error e, { p with keys := some source })

/-- Plans rows in order. -/
def planRows [KeyGenerator Keys] (t : Table) (p : Planning Keys) :
    List RowValues → Except Error (List PlannedRow) × Planning Keys
  | [] => (.ok [], p)
  | row :: rows =>
    match settleKey t p row with
    | (.error e, p) => (.error e, p)
    | (.ok (row, key), p) =>
      match Plan.insert t row with
      | .error e => (.error e, p)
      | .ok statement =>
        match planRows t p rows with
        | (.ok planned, p) => (.ok (⟨statement, key⟩ :: planned), p)
        | (.error e, p) => (.error e, p)

/-- The texts of the keys that rows bring along. -/
def suppliedKeys (t : Table) (rows : List RowValues) : List String :=
  match t.primaryKey? with
  | none => []
  | some column => rows.filterMap fun row => (suppliedKey? row column.name).map Value.text

/-- Adds planned rows in order and gives their keys; a key that was not known before is the row
id. -/
def addRows : List PlannedRow → Operation (List Value) Keys
  | [], db => (.ok [], db)
  | row :: rows, db =>
    match addRow row.statement db with
    | (.error e, db) => (.error e, db)
    | (.ok id, db) =>
      match addRows rows db with
      | (.ok keys, db) => (.ok (row.key.getD (.int id) :: keys), db)
      | (.error e, db) => (.error e, db)

/-- Adds rows and gives their keys in the order of the rows. -/
def create [KeyGenerator Keys] (scoping : Scoping) (r : CreateRequest) :
    Operation (List Value) Keys := fun db =>
  match db.catalog.table r.table with
  | .error e => (.error e, db)
  | .ok t =>
    let (planned, p) := planRows t ⟨suppliedKeys t r.rows, db.keys⟩ r.rows
    let db := { db with keys := p.keys }
    match planned with
    | .error e => (.error e, db)
    | .ok planned => within scoping (addRows planned) db

/-! ## Read, update and delete -/

/-- The result row of the cells of a plan's columns. -/
def resultRow (columns : List OutputColumn) (cells : List Cell) : ResultRow :=
  (columns.zip cells).map fun (column, cell) => ⟨column.label, cell.toValue column.type⟩

/-- Runs a planned read. -/
def fetch (plan : ReadPlan) : Operation (List ResultRow) Keys := fun db =>
  (do return (← db.store.select plan.select).map (resultRow plan.columns), db)

/-- Reads rows. -/
def read (scoping : Scoping) (r : ReadRequest) : Operation (List ResultRow) Keys := fun db =>
  match Plan.read db.catalog r with
  | .error e => (.error e, db)
  | .ok plan => within scoping (fetch plan) db

/-- Changes rows and gives their count. -/
def update (scoping : Scoping) (r : UpdateRequest) : Operation Nat Keys := fun db =>
  match Plan.update db.catalog r with
  | .error e => (.error e, db)
  | .ok statement => within scoping (change (·.update statement)) db

/-- Removes rows and gives their count. -/
def delete (scoping : Scoping) (r : DeleteRequest) : Operation Nat Keys := fun db =>
  match Plan.delete db.catalog r with
  | .error e => (.error e, db)
  | .ok statement => within scoping (change (·.delete statement)) db

end Database

end Tabula
