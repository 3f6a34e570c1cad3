import Tabula.Store.Check

/-!
# Limits

The store refuses statements that are too large: in columns, in ordering terms, in parameters, in
sources, or in how deeply a condition nests. A row of conjuncts or of disjuncts nests to the left,
so it is as deep as it is long.
-/

namespace Tabula.Store

open Sql (Condition Select Insert Update Delete)

/-! ## Depth -/

/-- What matters of an expression: its depth, and whether it is the number zero. -/
structure Extent where
  depth : Nat
  isZero : Bool := false
  deriving DecidableEq, Repr

namespace Extent

/-- The deepest that an expression may be. -/
def maxDepth : Nat := 1000

/-- An expression that is not too deep. -/
def bounded (e : Extent) : Except Error Extent :=
  if e.depth ≤ maxDepth then .ok e else .error (.storage .tooDeep)

/-- A number. -/
def number (isZero : Bool) : Extent := ⟨1, isZero⟩

/-- The conjunction of two expressions; with zero it is zero. -/
def both (a b : Extent) : Except Error Extent :=
  if a.isZero || b.isZero then .ok (number true) else bounded ⟨max a.depth b.depth + 1, false⟩

/-- The disjunction of two expressions. -/
def either (a b : Extent) : Except Error Extent :=
  bounded ⟨max a.depth b.depth + 1, false⟩

/-- A comparison of qualified columns or values. -/
def comparison : Extent := ⟨3, false⟩

/-- A comparison with values. To be among no values is a number; not to be among some, and to be
unlike a pattern, is the negation of a comparison. -/
def ofTest (t : Sql.Test) : Extent :=
  match t.method, t.operand with
  | .member, .list [] => number true
  | .notMember, .list [] => number false
  | .notMember, _ | .unlike, _ => ⟨4, false⟩
  | _, _ => comparison

mutual

/-- The extent of a condition. -/
def ofCondition : Condition → Except Error Extent
  | .atom t => .ok (ofTest t)
  | .all [] | .any [] => .ok (number false)
  | .all (part :: parts) => do ofChain both (← ofCondition part) parts
  | .any (part :: parts) => do ofChain either (← ofCondition part) parts

/-- The extent of an expression combined with conditions one after the other. -/
def ofChain (combine : Extent → Extent → Except Error Extent) (e : Extent) :
    List Condition → Except Error Extent
  | [] => .ok e
  | part :: parts => do ofChain combine (← combine e (← ofCondition part)) parts

end

/-- The extent of a condition to which the comparisons of so many joins are added. -/
def withJoins (e : Extent) : Nat → Except Error Extent
  | 0 => .ok e
  | joins + 1 => do
    let e ← withJoins e joins
    bounded ⟨max e.depth comparison.depth + 1, false⟩

/-- Checks that the conditions of a statement are not too deep. -/
def check (condition : Option Condition) (joins : Nat) : Except Error Unit := do
  match condition, joins with
  | some c, joins => let _ ← withJoins (← ofCondition c) joins
  | none, joins + 1 => let _ ← withJoins comparison joins
  | none, 0 => return

end Extent

/-! ## Counts -/

/-- The most columns that a table, an index or a result may have, terms that an ordering may have,
and settings that an update may have. -/
def maxTerms : Nat := 2000

/-- The most parameters that a statement may have. -/
def maxParameters : Nat := 32766

/-- The most sources that a statement may have. -/
def maxSources : Nat := 64

/-- Checks a count against a limit. -/
def checkCount (count most : Nat) (e : StorageError) : Except Error Unit :=
  if count ≤ most then .ok () else .error (.storage e)

/-- Checks that a statement can be read at all: its text ends at a zero character. -/
def checkReadable (tokens : List Sql.Token) : Except Error Unit :=
  if (Sql.render tokens).toList.contains '\x00' then .error (.storage .unreadableStatement)
  else .ok ()

/-- Checks that a statement can be read and has not too many parameters. -/
def checkTokens (tokens : List Sql.Token) : Except Error Unit := do
  checkReadable tokens
  checkCount (Sql.parameters tokens).length maxParameters .tooManyParameters

/-- Checks the size of a select statement. -/
def checkSelect (q : Select) : Except Error Unit := do
  checkTokens q.tokens
  checkCount q.columns.length maxTerms .tooManyResults
  checkCount q.ordering.length maxTerms .tooManyOrderings
  checkCount (q.joins.length + 1) maxSources .tooManyTables
  Extent.check q.condition q.joins.length

/-- Checks the size of an update statement. -/
def checkUpdate (q : Update) : Except Error Unit := do
  checkTokens q.tokens
  checkCount q.values.length maxTerms .tooManySettings
  Extent.check q.condition 0

/-- Checks the size of a delete statement. -/
def checkDelete (q : Delete) : Except Error Unit := do
  checkTokens q.tokens
  Extent.check q.condition 0

end Tabula.Store
