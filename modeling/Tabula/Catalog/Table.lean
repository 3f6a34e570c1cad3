import Tabula.Error

/-!
# Tables

The definition of a table: its columns in order, at most one of them the primary key, and its
composite unique constraints. `Table.check` says whether a definition is consistent in itself.
-/

namespace Tabula

/-! ## Columns -/

/-- The default of a column. -/
inductive Default where
  | value (v : Value)
  | currentTimestamp
  deriving Repr, BEq

/-- A column. -/
structure Column where
  name : String
  type : ColumnType
  nullable : Bool := false
  isKey : Bool := false
  isUnique : Bool := false
  default? : Option Default := none
  deriving Repr, BEq

/-- Whether the default of a column fits it. -/
def Column.defaultFits (c : Column) : Bool :=
  match c.default? with
  | none => true
  | some .currentTimestamp => c.type = .timestamp || c.type = .int
  | some (.value (.list _)) => false
  | some (.value .null) => c.nullable
  | some (.value v) => c.type.accepts v

/-! ## Tables -/

/-- A combination of columns that no two rows share. -/
structure UniqueConstraint where
  name : String
  columns : List String
  deriving Repr, BEq

/-- A table. -/
structure Table where
  name : String
  columns : List Column
  unique : List UniqueConstraint := []
  deriving Repr, BEq

namespace Table

/-- The column of a name. -/
def column? (t : Table) (name : String) : Option Column :=
  t.columns.find? fun c => c.name = name

/-- Whether a table has a column of a name. -/
def hasColumn (t : Table) (name : String) : Bool :=
  (t.column? name).isSome

/-- The primary key column, if the table has one. -/
def primaryKey? (t : Table) : Option Column :=
  t.columns.find? Column.isKey

/-- The column of a name, or the error that there is none. -/
def column (t : Table) (name : String) : Except Error Column :=
  match t.column? name with
  | some c => .ok c
  | none => .error (.schema (.unknownColumn t.name name))

/-! ## Consistency -/

/-- Whether a table or column may have a name: names take part in references, so they contain no
point and are not the wildcard. -/
def isName (s : String) : Bool :=
  s ≠ "" && !s.toList.contains '.' && s ≠ "*"

/-- Checks columns after those named in `seen`. -/
def checkColumns (table : String) (seen : List String) : List Column → Except Error Unit
  | [] => .ok ()
  | c :: columns => do
    if !isName c.name then throw (.schema (.invalidColumnName c.name))
    if seen.contains c.name then throw (.schema (.duplicateColumn table c.name))
    if !c.defaultFits then throw (.schema (.unfitDefault table c.name c.type))
    checkColumns table (c.name :: seen) columns

/-- Checks that there is at most one primary key, of a type that keys may have. -/
def checkKey (t : Table) : Except Error Unit :=
  match t.columns.filter Column.isKey with
  | [] => .ok ()
  | [key] =>
    if key.type.isKeyType then .ok ()
    else .error (.schema (.primaryKeyType t.name key.name key.type))
  | _ => .error (.schema (.severalPrimaryKeys t.name))

/-- Checks that a constraint has columns, all of them the table's. -/
def checkConstraint (t : Table) (u : UniqueConstraint) : Except Error Unit :=
  if u.columns.isEmpty then .error (.schema (.emptyConstraint u.name t.name))
  else
    match u.columns.find? fun c => !t.hasColumn c with
    | some missing => .error (.schema (.constraintColumn u.name t.name missing))
    | none => .ok ()

/-- Checks that a definition is consistent in itself. -/
def check (t : Table) : Except Error Unit := do
  if !isName t.name then throw (.schema (.invalidTableName t.name))
  if t.columns.isEmpty then throw (.schema (.noColumns t.name))
  checkColumns t.name [] t.columns
  t.checkKey
  t.unique.forM t.checkConstraint

end Table

end Tabula
