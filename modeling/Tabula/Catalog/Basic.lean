import Tabula.Catalog.Table

/-!
# Catalogs

A catalog is a set of consistent tables by name. Constraint names share one namespace with table
names across the whole catalog, because the store keeps both as names of its own.
-/

namespace Tabula

/-- The tables that requests can name, in name order. -/
structure Catalog where
  entries : Assoc Table
  deriving Repr, BEq

namespace Catalog

/-- The tables in name order. -/
def tables (c : Catalog) : List Table := c.entries.map (·.2)

/-- The table names in order. -/
def names (c : Catalog) : List String := Assoc.keys c.entries

/-- The count of tables. -/
def size (c : Catalog) : Nat := c.entries.length

/-- The table of a name. -/
def table? (c : Catalog) (name : String) : Option Table := Assoc.find? c.entries name

/-- The table of a name, or the error that there is none. -/
def table (c : Catalog) (name : String) : Except Error Table :=
  match c.table? name with
  | some t => .ok t
  | none => .error (.schema (.unknownTable name))

/-- Whether a table exists and has a column. -/
def hasColumn (c : Catalog) (table column : String) : Bool :=
  match c.table? table with
  | some t => t.hasColumn column
  | none => false

/-! ## Building -/

/-- Adds tables to those that were added before. -/
def addTables (entries : Assoc Table) : List Table → Except Error (Assoc Table)
  | [] => .ok entries
  | t :: tables => do
    t.check
    if (Assoc.find? entries t.name).isSome then throw (.schema (.duplicateTable t.name))
    addTables (Assoc.insert entries t.name t) tables

/-- Every constraint with the name of its table, in the order of tables and constraints. -/
def constraints (entries : Assoc Table) : List (UniqueConstraint × String) :=
  entries.flatMap fun (_, t) => t.unique.map fun u => (u, t.name)

/-- Checks constraint names against table names and the owners of earlier constraints. -/
def checkConstraintNames (entries : Assoc Table) (owners : Assoc String) :
    List (UniqueConstraint × String) → Except Error Unit
  | [] => .ok ()
  | (u, table) :: rest => do
    if (Assoc.find? entries u.name).isSome then
      throw (.schema (.constraintNamedLikeTable u.name table))
    match Assoc.find? owners u.name with
    | some owner => throw (.schema (.duplicateConstraint u.name owner table))
    | none => checkConstraintNames entries (Assoc.insert owners u.name table) rest

/-- The catalog of some tables, if they are consistent. -/
def build (tables : List Table) : Except Error Catalog := do
  let entries ← addTables [] tables
  checkConstraintNames entries [] (constraints entries)
  return ⟨entries⟩

end Catalog

end Tabula
