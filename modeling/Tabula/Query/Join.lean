import Tabula.Query.Scope

/-!
# Joins

A join declaration gives an alias a chain of steps, each a column of the table before it, a
comparison method, a target table and a column of the target. The first step starts at the base
table. The alias names the last table of its chain, the tables on the way have the alias with the
number of their step.
-/

namespace Tabula

/-- Chains of steps by alias. -/
abbrev JoinSpec := Assoc (List (List String))

/-- The steps of all chains, and the table that each alias names. -/
structure JoinPlan where
  steps : List Sql.JoinStep
  aliases : Assoc Table

namespace JoinPlan

/-- The text of the steps, as it follows the base table. -/
def clause (p : JoinPlan) : String :=
  String.join (p.steps.map fun s => " " ++ Sql.render s.tokens)

end JoinPlan

namespace Join

/-- Whether a join may have an alias: aliases take part in references and in names of steps. -/
def isAlias (s : String) : Bool :=
  s ≠ "" && !s.toList.contains '.' && !s.toList.contains '#'

/-- Checks the alias of a join on a base table. -/
def checkAlias (base : Table) (aliasName : String) : Except Error Unit := do
  if !isAlias aliasName then throw (.join (.invalidAlias aliasName))
  if aliasName = base.name then throw (.join (.aliasOfBase aliasName))

/-- The alias of a step: the join's own for the last one, else with the step's number. -/
def stepAlias (aliasName : String) (index : Nat) (last : Bool) : String :=
  if last then aliasName else s!"{aliasName}#{index}"

/-- The method of a step; it compares two columns, so it takes no list. -/
def stepMethod (aliasName : String) (index : Nat) (name : String) : Except Error Comparison :=
  match Comparison.ofName? name with
  | none => .error (.join (.unknownMethod aliasName index name))
  | some method =>
    if method.takesList then .error (.join (.listMethod aliasName index name)) else .ok method

/-- One step of a chain that has come to `table` under the name `source`; also gives the table
that the step joins. -/
def step (catalog : Catalog) (aliasName source : String) (table : Table) (index : Nat)
    (last : Bool) : List String → Except Error (Sql.JoinStep × Table)
  | [column, method, target, targetColumn] => do
    let method ← stepMethod aliasName index method
    let joined ← catalog.table target
    let _ ← table.column column
    let _ ← joined.column targetColumn
    return ({
      table := joined.name
      aliasName := stepAlias aliasName index last
      left := ⟨source, column⟩
      method
      rightColumn := targetColumn }, joined)
  | parts => .error (.join (.stepLength aliasName index parts.length))

/-- The steps of a chain from its step `index` on; also gives the last table. -/
def chain (catalog : Catalog) (aliasName source : String) (table : Table) (index : Nat) :
    List (List String) → Except Error (List Sql.JoinStep × Table)
  | [] => .ok ([], table)
  | parts :: rest => do
    let (s, joined) ← step catalog aliasName source table index rest.isEmpty parts
    let (steps, last) ← chain catalog aliasName s.aliasName joined (index + 1) rest
    return (s :: steps, last)

/-- The steps of the joins of a base table, alias by alias. -/
def plan (catalog : Catalog) (base : Table) : JoinSpec → Except Error JoinPlan
  | [] => .ok ⟨[], []⟩
  | (aliasName, parts) :: rest => do
    checkAlias base aliasName
    if parts.isEmpty then throw (.join (.noSteps aliasName))
    let (steps, last) ← chain catalog aliasName base.name base 0 parts
    let others ← plan catalog base rest
    return ⟨steps ++ others.steps, (aliasName, last) :: others.aliases⟩

end Join

end Tabula
