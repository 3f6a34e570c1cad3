import Tabula.Store.Relation

/-!
# Changing rows

Rows are added and set cell by cell, each cell converted by the affinity of its column. Of values
that are given for one column under several spellings of its name, a new row takes the first and a
changed row the last; the row id always takes the last.
-/

namespace Tabula.Store.Relation

/-- Cells for the slots of a row, in the order in which they were given. -/
abbrev Assignment := List (Slot × Cell)

/-- The slot and bound cell of each value, or the first name that is no column. -/
def bind (rel : Relation) (values : RowValues) : Except Error Assignment :=
  values.mapM fun (name, v) => do
    let some slot := rel.slot? name | throw (.storage (.unknownColumn name))
    let some c := Cell.ofValue? v | throw (.storage .listParameter)
    return (slot, c)

/-- The cell that was given last for a slot. -/
def lastOf (assignment : Assignment) (slot : Slot) : Option Cell :=
  assignment.reverse.lookup slot

/-! ## Row ids -/

/-- Puts a row in its place by id. -/
def place (r : Row) : List Row → List Row
  | [] => [r]
  | other :: rows => if r.id < other.id then r :: other :: rows else other :: place r rows

/-- The greatest row id there can be. -/
def maxId : Int64 := Int64.maxValue

/-- An id for a row that is given none: one more than the greatest, or, when that is taken, the
least positive one that is free. -/
def freshId (rel : Relation) : Int64 :=
  match rel.rows.getLast? with
  | none => 1
  | some last =>
    if last.id < maxId then last.id + 1
    else
      let candidates := (List.range (rel.rows.length + 1)).map fun n => Int64.ofNat (n + 1)
      (candidates.find? fun n => !rel.rows.any fun r => r.id = n).getD 1

/-- The row id that a cell is. -/
def idOfCell (c : Cell) : Except Error Int64 :=
  match c.toNumber.toWhole with
  | .int n => .ok n
  | _ => .error (.database .datatypeMismatch)

/-- The id of a new row: the one it is given, or a fresh one where that is null or missing. -/
def newId (rel : Relation) (assignment : Assignment) : Except Error Int64 :=
  match lastOf assignment .rowId with
  | none | some .null => .ok rel.freshId
  | some c => idOfCell c

/-- A row of some cells; a column that is the row id shows it. -/
def rowOf (rel : Relation) (id : Int64) (cells : List Cell) : Row :=
  match rel.idField with
  | some i => ⟨id, cells.set i (.int id)⟩
  | none => ⟨id, cells⟩

/-! ## Adding -/

/-- The cell that a column is filled with. -/
def fill (now : Int64) (f : Field) : Cell :=
  match f.filler with
  | .cell c => f.affinity.store c
  | .currentTime => f.affinity.store (.int now)

/-- Adds a row; also gives its id. -/
def insert (rel : Relation) (now : Int64) (values : RowValues) :
    Except Error (Relation × Int64) := do
  let assignment ← rel.bind values
  let id ← rel.newId assignment
  let cells := rel.fields.zipIdx.map fun (f, i) =>
    match assignment.lookup (.field i) with
    | some c => f.affinity.store c
    | none => fill now f
  let row := rel.rowOf id cells
  rel.checkRow rel.rows row
  return ({ rel with rows := place row rel.rows }, id)

/-! ## Setting -/

/-- A row with some cells set. -/
def setCells (rel : Relation) (assignment : Assignment) (r : Row) : Except Error Row := do
  let id ← match lastOf assignment .rowId with
    | some c => idOfCell c
    | none => pure r.id
  let cells := (rel.fields.zip r.cells).zipIdx.map fun ((f, old), i) =>
    match lastOf assignment (.field i) with
    | some c => f.affinity.store c
    | none => old
  return rel.rowOf id cells

/-- Sets cells of the rows with some ids, one row after the other. -/
def updateRows (rel : Relation) (assignment : Assignment) :
    List Int64 → Except Error Relation
  | [] => .ok rel
  | id :: ids => do
    match rel.rows.find? fun r => r.id = id with
    | none => updateRows rel assignment ids
    | some old =>
      let new ← rel.setCells assignment old
      let others := rel.rows.filter fun r => r.id ≠ id
      rel.checkRow others new
      updateRows { rel with rows := place new others } assignment ids

end Tabula.Store.Relation
