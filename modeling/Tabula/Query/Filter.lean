import Tabula.Query.Scope

/-!
# Filters

A filter is a formula over comparisons of columns with values. It is read from a JSON object whose
keys are comparison methods, each with the columns it applies to, or `or` with alternatives. It becomes
the condition of a statement by resolving its column references in a scope. What constrains nothing is
left out, so a filter without comparisons gives no condition at all.
-/

namespace Tabula

/-- One comparison of a filter, its column still a reference. -/
structure Constraint where
  method : Comparison
  column : String
  value : Value
  deriving Repr, BEq

/-- A filter. -/
abbrev Filter := Formula Constraint

namespace Comparison

/-- Whether a value is a comparand of a method. -/
def fits : Comparison → Value → Bool
  | member, .list items => items.all fun v => !v.isList
  | notMember, .list items => items.all fun v => !v.isList
  | member, _ => false
  | notMember, _ => false
  | like, .string _ => true
  | unlike, .string _ => true
  | like, _ => false
  | unlike, _ => false
  | eq, v => !v.isList
  | ne, v => !v.isList
  | _, v => !v.isList && !v.isNull

/-- What a method's comparands are called. -/
def comparandName : Comparison → String
  | member | notMember => "a list of scalar values"
  | like | unlike => "a string pattern"
  | lt | le | gt | ge => "a non-null scalar value"
  | eq | ne => "a scalar value"

end Comparison

namespace Filter

/-! ## Reading -/

/-- The comparand of a method; what has no value at all is never one. -/
def comparand (method : Comparison) (column : String) (raw : Json) : Except Error Value :=
  match Value.ofJson? raw with
  | none => .error (.comparison ⟨method, "a scalar value", column, raw.kindName⟩)
  | some v =>
    if method.fits v then .ok v
    else .error (.comparison ⟨method, method.comparandName, column, raw.kindName⟩)

/-- Inside a filter a misfit comparand is an error of the filter. -/
def asFilterError : Error → Error
  | .comparison e => .filters (.comparand e)
  | e => e

/-- The comparisons of one method with each of its columns. -/
def constraints (name : String) (raw : Json) : Except Error (List Constraint) :=
  match Comparison.ofName? name with
  | none => .error (.filters (.unknownMethod name))
  | some method =>
    match raw with
    | .object fields =>
      fields.mapM fun (column, item) =>
        match comparand method column item with
        | .ok v => .ok ⟨method, column, v⟩
        | .error e => .error (asFilterError e)
    | _ => .error (.filters (.methodWithoutMapping name raw.kindName))

mutual

/-- The filter that a JSON value describes. -/
def ofJson : Json → Except Error Filter
  | .object fields => .all <$> parts fields
  | raw => .error (.filters (.notMapping raw.kindName))

/-- The parts that the fields of a filter describe. -/
def parts : List (String × Json) → Except Error (List Filter)
  | [] => .ok []
  | (key, raw) :: fields => do
    let first ← if key = "or" then (fun f => [f]) <$> alternatives raw
      else (fun cs => cs.map .atom) <$> constraints key raw
    return first ++ (← parts fields)

/-- The disjunction that a list of filters describes. -/
def alternatives : Json → Except Error Filter
  | .array [] => .error (.filters .orEmpty)
  | .array (item :: items) => do
    let first ← ofJson item
    return .any (first :: (← ofJsonItems items))
  | raw => .error (.filters (.orWithoutList raw.kindName))

/-- The filters that the items of a list describe. -/
def ofJsonItems : List Json → Except Error (List Filter)
  | [] => .ok []
  | item :: items => do
    let f ← ofJson item
    return f :: (← ofJsonItems items)

end

/-- The column references of a filter in order of appearance. -/
def columns (f : Filter) : List String :=
  f.atoms.map Constraint.column

end Filter

/-! ## Conditions of filters -/

open Sql (Condition Operand Test)

/-- The operand that a method compares with, or the error that the value has the wrong shape. -/
def Constraint.operand (c : Constraint) (column : Column) : Except Error Operand :=
  match c.method.takesList, c.value with
  | true, .list items => .ok (.list items)
  | true, v => .error (.filters (.unexpectedOperand c.method v.typeName column.name))
  | false, .list items =>
    .error (.filters (.unexpectedOperand c.method (Value.list items).typeName column.name))
  | false, v => .ok (.value v)

/-- A comparison of a filter with its column resolved. -/
def Constraint.test (scope : Scope) (c : Constraint) : Except Error Test := do
  let column ← scope.resolveColumn c.column
  let operand ← c.operand column.column
  return ⟨column.ref, c.method, operand⟩

namespace Filter

/-- The condition of a filter in a scope; there is none if the filter constrains nothing. -/
def condition (scope : Scope) (f : Filter) : Except Error (Option Condition) :=
  if f.isEmpty then .ok none else some <$> f.prune.mapM (Constraint.test scope)

/-- The condition of an optional filter in its JSON form. -/
def conditionOfJson (scope : Scope) : Option Json → Except Error (Option Condition)
  | none => .ok none
  | some raw => do condition scope (← ofJson raw)

end Filter

end Tabula
