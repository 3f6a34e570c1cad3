import Tabula.Query.Filter
import Tabula.Request.Basic

/-!
# Plans

A request is checked against the catalog and becomes a statement. A request that is refused here
never reaches the store.
-/

namespace Tabula

open Sql (Select Insert Update Delete ColumnRef Direction)

/-- A select statement with the labels and types of its result columns. -/
structure ReadPlan where
  select : Select
  columns : List OutputColumn
  deriving Repr

namespace Plan

/-! ## Checks -/

/-- A limit is a positive 64 bit number. -/
def checkLimit (n : Nat) : Except Error Int64 :=
  if 0 < n && n ≤ Int64.maxValue.toNatClampNeg then .ok (Int64.ofNat n)
  else .error (.request (.limit n))

/-- Checks one value that is written to a column. Null is left to the key column, which may then
be assigned. -/
def checkValue (t : Table) (name : String) (v : Value) : Except Error Unit := do
  let c ← t.column name
  if !c.type.accepts v then throw (.database (.wrongType t.name name c.type v.typeName))
  if v.isNull && !c.nullable && !c.isKey then throw (.database (.nullNotAllowed t.name name))

/-- Checks the values that are written to a row. -/
def checkValues (t : Table) (values : RowValues) : Except Error Unit :=
  values.forM fun (name, v) => checkValue t name v

/-! ## Statements of requests -/

/-- The ordering terms of a request. -/
def ordering (scope : Scope) (terms : List (String × Direction)) :
    Except Error (List (ColumnRef × Direction)) :=
  terms.mapM fun (reference, direction) => do
    let column ← scope.resolveColumn reference
    return (column.ref, direction)

/-- The plan of a read request. -/
def read (catalog : Catalog) (r : ReadRequest) : Except Error ReadPlan := do
  let table ← catalog.table r.table
  let limit ← r.limit.mapM checkLimit
  let joins ← Join.plan catalog table (r.joins.getD [])
  let scope : Scope := ⟨table, joins.aliases⟩
  let columns ← scope.selectList (if r.columns.isEmpty then [wildcard] else r.columns)
  let condition ← Filter.conditionOfJson scope r.filters
  let terms ← ordering scope (r.ordering.getD [])
  return {
    select := {
      columns := columns.map OutputColumn.ref
      table := table.name
      joins := joins.steps
      condition
      ordering := terms
      limit }
    columns }

/-- The statement that adds a row. -/
def insert (t : Table) (row : RowValues) : Except Error Insert := do
  checkValues t row
  return ⟨t.name, row⟩

/-- The statement of an update request. -/
def update (catalog : Catalog) (r : UpdateRequest) : Except Error Update := do
  let t ← catalog.table r.table
  if r.values.isEmpty then throw (.request (.noValues t.name))
  checkValues t r.values
  let condition ← Filter.conditionOfJson ⟨t, []⟩ r.filters
  return ⟨t.name, r.values, condition⟩

/-- The statement of a delete request. -/
def delete (catalog : Catalog) (r : DeleteRequest) : Except Error Delete := do
  let t ← catalog.table r.table
  let condition ← Filter.conditionOfJson ⟨t, []⟩ r.filters
  return ⟨t.name, condition⟩

end Plan

end Tabula
