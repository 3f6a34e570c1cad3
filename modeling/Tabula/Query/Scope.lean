import Tabula.Catalog.Basic
import Tabula.Sql.Statement

/-!
# Scopes and references

A request refers to columns by `column`, a column of its base table, or by `source.column`, where
the source is the base table's name or a declared join alias. The column `*` stands for all
columns of its source in a column list.
-/

namespace Tabula

/-- What the references of a request can mean: the base table, and the table of every alias. -/
structure Scope where
  base : Table
  aliases : Assoc Table := []

/-- What a reference names in its table. -/
inductive Target where
  | column (c : Column)
  | wildcard

/-- A reference that was looked up. -/
structure Resolved where
  table : Table
  source : String
  /-- Whether the reference names its source. -/
  qualified : Bool
  target : Target

/-- A column of a source. -/
structure ScopedColumn where
  table : Table
  source : String
  column : Column

/-- The column as it is named in statements. -/
def ScopedColumn.ref (c : ScopedColumn) : Sql.ColumnRef := ⟨c.source, c.column.name⟩

/-- A column of a result. -/
structure OutputColumn where
  ref : Sql.ColumnRef
  label : String
  type : ColumnType
  deriving DecidableEq, Repr

/-- The reference to all columns of the base table. -/
def wildcard : String := "*"

/-- A reference cut at its point into source and column; `none` if it has more than one point. -/
def splitReference (reference : String) : Option (Option String × String) :=
  let source := reference.toList.takeWhile (· ≠ '.')
  match reference.toList.dropWhile (· ≠ '.') with
  | [] => some (none, reference)
  | _ :: rest =>
    if rest.contains '.' then none else some (some (String.ofList source), String.ofList rest)

namespace Scope

/-- The table that a source name stands for. -/
def table? (s : Scope) (source : String) : Option Table :=
  if source = s.base.name then some s.base else Assoc.find? s.aliases source

/-- Looks up the source of a reference; without one the base table is meant. -/
def sourceTable (s : Scope) (reference : String) : Option String → Except Error (Table × String)
  | none => .ok (s.base, s.base.name)
  | some source =>
    match s.table? source with
    | some t => .ok (t, source)
    | none => .error (.schema (.unknownAlias reference source))

/-- Looks up a reference. -/
def resolve (s : Scope) (reference : String) : Except Error Resolved := do
  match splitReference reference with
  | none => throw (.schema (.tooManyComponents reference))
  | some (source?, name) =>
    let (table, source) ← s.sourceTable reference source?
    let target ←
      if name = wildcard then pure Target.wildcard else Target.column <$> table.column name
    return ⟨table, source, source?.isSome, target⟩

/-- Looks up a reference to a single column. -/
def resolveColumn (s : Scope) (reference : String) : Except Error ScopedColumn := do
  let r ← s.resolve reference
  match r.target with
  | .column c => return ⟨r.table, r.source, c⟩
  | .wildcard => throw (.schema (.misplacedWildcard reference))

/-- The label of a column that a wildcard stands for. -/
def wildcardLabel (r : Resolved) (c : Column) : String :=
  if r.qualified then r.source ++ "." ++ c.name else c.name

/-- The result columns of one entry of a column list. -/
def select (s : Scope) (reference : String) : Except Error (List OutputColumn) := do
  let r ← s.resolve reference
  match r.target with
  | .column c => return [⟨⟨r.source, c.name⟩, reference, c.type⟩]
  | .wildcard =>
    return r.table.columns.map fun c => ⟨⟨r.source, c.name⟩, wildcardLabel r c, c.type⟩

/-- The result columns of a column list. -/
def selectList (s : Scope) (references : List String) : Except Error (List OutputColumn) := do
  return (← references.mapM s.select).flatten

end Scope

end Tabula
