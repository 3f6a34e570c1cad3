import Tabula.Sql.Statement
import Tabula.Store.Matching
import Tabula.Store.Relation

/-!
# Checks

A statement's sources are the base table under its own name and every joined table under its
alias. The comparisons of a statement become checks: their columns are located in the sources and
their values are bound. A check has a truth value for every choice of one row of each source.
-/

namespace Tabula.Store

open Sql (ColumnRef Condition JoinStep)

/-! ## Sources and columns -/

/-- A table under the names that a statement can use for it. -/
structure Source where
  names : List String
  relation : Relation

/-- Where a column is: in which source, and in which slot of it. -/
structure Place where
  source : Nat
  slot : Slot
  affinity : Affinity
  deriving DecidableEq, Repr

namespace Source

/-- Whether a source goes by a name. -/
def isCalled (s : Source) (name : String) : Bool := s.names.any (sameName name)

/-- The place of a slot of the source at an index. -/
def place (s : Source) (index : Nat) (slot : Slot) : Place :=
  ⟨index, slot, s.relation.affinity slot⟩

end Source

/-- The places that a column reference could mean. A source that alone has its name also has its
row id under the reserved names. -/
def placesOf (sources : List Source) (r : ColumnRef) : List Place :=
  let called := sources.zipIdx.filter fun (s, _) => s.isCalled r.source
  let declared := called.filterMap fun (s, i) =>
    (s.relation.declared? r.column).map (s.place i)
  match declared, called with
  | [], [(s, i)] => ((s.relation.slot? r.column).map (s.place i)).toList
  | _, _ => declared

/-- The place that a column reference means. -/
def locate (sources : List Source) (r : ColumnRef) : Except Error Place :=
  match placesOf sources r with
  | [place] => .ok place
  | [] => .error (.storage (.unknownColumn s!"{r.source}.{r.column}"))
  | _ => .error (.storage (.ambiguousColumn s!"{r.source}.{r.column}"))

/-- A row of each source, in the order of the sources; there is none of a source that is not come to
yet. -/
abbrev Choice := List (Option Row)

/-- The cell of a choice at a place. -/
def cellAt (choice : Choice) (p : Place) : Cell :=
  match choice[p.source]? with
  | some (some r) => r.cellOf p.slot
  | _ => .null

/-! ## Checks -/

/-- A comparison whose columns are located and whose values are bound, or one that is decided
without looking at a row. -/
inductive Check where
  | decided (holds : Bool)
  | value (left : Place) (method : Comparison) (right : Cell)
  | list (left : Place) (method : Comparison) (right : List Cell)
  | column (left : Place) (method : Comparison) (right : Place)
  deriving DecidableEq, Repr

/-- The cell that a value is bound as. -/
def bindValue (v : Value) : Except Error Cell :=
  match Cell.ofValue? v with
  | some c => .ok c
  | none => .error (.storage .listParameter)

/-- The check of a comparison with values. A comparison with no values is decided without its
column being looked up. -/
def checkOfTest (sources : List Source) (t : Sql.Test) : Except Error Check := do
  match t.operand with
  | .list [] => return .decided (t.method ≠ .member)
  | .list vs => return .list (← locate sources t.column) t.method (← vs.mapM bindValue)
  | .value v => return .value (← locate sources t.column) t.method (← bindValue v)

/-- The check of a join step. -/
def checkOfStep (sources : List Source) (s : JoinStep) : Except Error Check := do
  return .column (← locate sources s.left) s.method (← locate sources s.right)

/-- The truth value of a comparison of two cells of given affinities. -/
def compareCells (method : Comparison) (left right : Option Affinity) (a b : Cell) : Truth :=
  if method.isTextual then method.holdsOn a b
  else
    let (a, b) := Affinity.meet left right a b
    method.holdsOn a b

/-- A bound cell as it is compared with a column. -/
def convertBound (p : Place) (c : Cell) : Cell :=
  (Affinity.meet (some p.affinity) none .null c).2

namespace Check

/-- The truth value of a check for a choice of rows. -/
def eval (choice : Choice) : Check → Truth
  | decided holds => .ofBool holds
  | value left method right =>
    compareCells method (some left.affinity) none (cellAt choice left) right
  | list left method right =>
    let cell := (Affinity.meet (some left.affinity) none (cellAt choice left) .null).1
    method.holdsOnList cell (right.map (convertBound left))
  | column left method right =>
    compareCells method (some left.affinity) (some right.affinity) (cellAt choice left)
      (cellAt choice right)

/-- The places that a check looks at. -/
def places : Check → List Place
  | decided _ => []
  | value left _ _ | list left _ _ => [left]
  | column left _ right => [left, right]

end Check

/-! ## Conditions -/

mutual

/-- Whether a condition holds for no row because a column should be among no values. -/
def neverHolds : Condition → Bool
  | .atom t => t.method = .member && t.operand == .list []
  | .all parts => someNeverHolds parts
  | .any [part] => neverHolds part
  | .any _ => false

/-- Whether one of some conditions holds for no row because a column should be among no values. -/
def someNeverHolds : List Condition → Bool
  | [] => false
  | part :: parts => neverHolds part || someNeverHolds parts

end

mutual

/-- The checks of a condition. An empty conjunction is decided, and in a conjunction that never
holds no columns are looked up. -/
def checksOf (sources : List Source) : Condition → Except Error (Formula Check)
  | .atom t => .atom <$> checkOfTest sources t
  | .all [] => .ok (.atom (.decided true))
  | .all parts =>
    if someNeverHolds parts then .ok (.atom (.decided false))
    else .all <$> checksOfEach sources parts
  | .any parts => .any <$> checksOfEach sources parts

/-- The checks of some conditions. -/
def checksOfEach (sources : List Source) : List Condition → Except Error (List (Formula Check))
  | [] => .ok []
  | part :: parts => do
    let checks ← checksOf sources part
    return checks :: (← checksOfEach sources parts)

end

/-- The checks of the condition of a statement; without one every row will do. -/
def checksOfClause (sources : List Source) : Option Condition → Except Error (Formula Check)
  | none => .ok (.all [])
  | some c => checksOf sources c

end Tabula.Store
