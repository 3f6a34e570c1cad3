import Tabula.Store.Access.Tour
import Tabula.Store.Basic

/-!
# Executing statements

A result has one row for every choice of rows, one from each source, that meets the comparisons of
all joins and the condition. The choices come in the order of the statement's tour; an ordering
sorts them and leaves those that it does not tell apart as they come. A statement that fails changes
nothing.
-/

namespace Tabula.Store

open Access (Arrangement Goal Leg Problem Tour)
open Sql (Condition Select)

/-! ## Tours of statements -/

/-- The slots of each source that some places are in. -/
def slotsUsed (sources : List Source) (places : List Place) : List (List Slot) :=
  (List.range sources.length).map fun i =>
    ((places.filter fun p => p.source = i).map Place.slot).eraseDups

/-- The tour of a statement with a condition, joins, an ordering and a result of some columns. -/
def readingTour (sources : List Source) (condition : Formula Check) (joins : List Check)
    (ordering : List (Place × Sql.Direction)) (columns : List Place) : Tour :=
  let places := columns ++ ordering.map (·.1) ++ (condition.atoms ++ joins).flatMap Check.places
  let problem : Problem := {
    relations := sources.map Source.relation
    used := slotsUsed sources places
    ordering
    width := columns.length
    isChange := false }
  Access.tourOf problem (Access.settle (condition.flatten.conjuncts ++ joins.map .atom))

/-- The tour of a statement that changes rows of one source. -/
def changingTour (source : Source) (condition : Formula Check) : Tour :=
  let problem : Problem := {
    relations := [source.relation]
    used := slotsUsed [source] (condition.atoms.flatMap Check.places)
    ordering := []
    width := 0
    isChange := true }
  Access.tourOf problem (Access.unsettled condition.flatten.conjuncts)

/-! ## Choices -/

/-- The sources that a goal looks at. -/
def lookedAt (goal : Formula Goal) : List Nat :=
  (goal.atoms.flatMap (·.check.places)).map Place.source

/-- The goals that can be decided when the last of some sources is chosen, and not before. -/
def dueGoals (goals : List (Formula Goal)) (before : List Nat) (source : Nat) :
    List (Formula Goal) :=
  goals.filter fun goal =>
    let sources := lookedAt goal
    sources.all (fun i => i = source || before.contains i)
      && (sources.contains source || (before.isEmpty && sources.isEmpty))

/-- Choices with the row of one more source, in all ways, in the arrangement of a leg. -/
def withRows (relations : List Relation) (leg : Leg) (chosen : List Choice) : List Choice :=
  let rows := (relations[leg.source]?.map Relation.rows).getD []
  let put (choice : Choice) (r : Row) : Choice := choice.set leg.source (some r)
  if leg.arrangement.dependsOnChoice then
    chosen.flatMap fun choice =>
      (leg.arrangement.arrange choice leg.source rows).map (put choice)
  else
    let rows := leg.arrangement.arrange [] leg.source rows
    chosen.flatMap fun choice => rows.map (put choice)

/-- Whether a choice meets some goals. -/
def meetsAll (choice : Choice) (goals : List (Formula Goal)) : Bool :=
  goals.all fun goal => (goal.eval (Goal.eval choice)).holds

/-- Choices carried on along the legs of a tour, `before` being the sources that are chosen. -/
def carryOn (relations : List Relation) (goals : List (Formula Goal)) :
    List Leg → List Nat → List Choice → List Choice
  | [], _, chosen => chosen
  | leg :: legs, before, chosen =>
    let due := dueGoals goals before leg.source
    let met := (withRows relations leg chosen).filter fun choice => meetsAll choice due
    carryOn relations goals legs (leg.source :: before) met

/-- The choice of no rows yet. -/
def noChoice (sources : List Source) : Choice := List.replicate sources.length none

/-- The choices of a tour, in its order. -/
def choices (sources : List Source) (tour : Tour) : List Choice :=
  carryOn (sources.map Source.relation) tour.goals tour.legs [] [noChoice sources]

/-! ## Long patterns -/

/-- The most bytes that a pattern may have. -/
def maxPattern : Nat := 50000

/-- Whether a cell is too long a pattern. -/
def isLongPattern (c : Cell) : Bool :=
  match c.toText with
  | .text s => maxPattern < s.utf8ByteSize
  | _ => false

/-- Whether a check compares with a pattern that is too long. -/
def hasLongPattern (choice : Choice) : Check → Bool
  | .value _ method right => method.isTextual && isLongPattern right
  | .column _ method right => method.isTextual && isLongPattern (cellAt choice right)
  | _ => false

/-- Whether a check may compare with a pattern that is too long. -/
def mayHaveLongPattern (relations : List Relation) (c : Check) : Bool :=
  match c with
  | .column _ method right =>
    method.isTextual && ((relations[right.source]?.map Relation.rows).getD []).any fun r =>
      isLongPattern (r.cellOf right.slot)
  | c => hasLongPattern [] c

mutual

/-- Whether deciding a goal, part by part from the left, comes to a pattern that is too long. -/
def comesToLongPattern (choice : Choice) : Formula Goal → Bool
  | .atom g => hasLongPattern choice g.check
  | .all parts => someOfAll choice parts
  | .any parts => someOfAny choice parts

/-- Whether deciding goals up to the first that is not met comes to a pattern that is too long. -/
def someOfAll (choice : Choice) : List (Formula Goal) → Bool
  | [] => false
  | part :: parts =>
    comesToLongPattern choice part
      || ((part.eval (Goal.eval choice)).holds && someOfAll choice parts)

/-- Whether deciding goals up to the first that is met comes to a pattern that is too long. -/
def someOfAny (choice : Choice) : List (Formula Goal) → Bool
  | [] => false
  | part :: parts =>
    comesToLongPattern choice part
      || (!(part.eval (Goal.eval choice)).holds && someOfAny choice parts)

end

/-- Goals with those that a search answers in front. -/
def searchedFirst (goals : List (Formula Goal)) : List (Formula Goal) :=
  let isSearched (goal : Formula Goal) : Bool := goal.atoms.any fun g => g.sought.isSome
  goals.filter isSearched ++ goals.filter fun goal => !isSearched goal

/-- Whether some choice on the legs of a tour comes to a pattern that is too long. -/
def meetsLongPattern (relations : List Relation) (goals : List (Formula Goal)) :
    List Leg → List Nat → List Choice → Bool
  | [], _, _ => false
  | leg :: legs, before, chosen =>
    let due := searchedFirst (dueGoals goals before leg.source)
    let candidates := withRows relations leg chosen
    candidates.any (someOfAll · due)
      || meetsLongPattern relations goals legs (leg.source :: before)
        (candidates.filter fun choice => meetsAll choice due)

/-- Checks that no choice on a tour comes to a pattern that is too long. -/
def checkPatterns (sources : List Source) (tour : Tour) : Except Error Unit := do
  let relations := sources.map Source.relation
  let checks := (tour.goals.flatMap Formula.atoms).map Goal.check
  if checks.any (mayHaveLongPattern relations)
      && meetsLongPattern relations tour.goals tour.legs [] [noChoice sources] then
    throw (.storage .patternTooLong)

/-! ## Reading -/

/-- Whether one choice stands no later than another under an ordering. -/
def standsBefore (a b : Choice) : List (Place × Sql.Direction) → Bool
  | [] => true
  | (p, direction) :: terms =>
    let order := (cellAt a p).compare (cellAt b p)
    match direction, order with
    | _, .eq => standsBefore a b terms
    | .ascending, order => order = .lt
    | .descending, order => order = .gt

/-- The source that a statement is about. -/
def baseSource (rel : Relation) : Source := ⟨Contents.namesOf rel.name, rel⟩

/-- The rows that a select statement gives, cells in the order of its columns. -/
def select (s : Store) (q : Select) : Except Error (List (List Cell)) := do
  checkSelect q
  let base ← s.readable q.table
  let joined ← q.joins.mapM fun step => do
    return Source.mk [step.aliasName] (← s.readable step.table)
  let sources := baseSource base :: joined
  let joins ← q.joins.mapM (checkOfStep sources)
  let columns ← q.columns.mapM (locate sources)
  let condition ← checksOfClause sources q.condition
  let ordering ← q.ordering.mapM fun (r, d) => do return ((← locate sources r), d)
  let tour := readingTour sources condition joins ordering columns
  checkPatterns sources tour
  let met := choices sources tour
  let sorted := if ordering.isEmpty then met else met.mergeSort fun a b => standsBefore a b ordering
  let limited := match q.limit with
    | some n => sorted.take n.toNatClampNeg
    | none => sorted
  return limited.map fun choice => columns.map (cellAt choice)

/-! ## Changing -/

/-- Adds a row. -/
def insert (s : Store) (q : Sql.Insert) : Except Error Store := do
  checkTokens q.tokens
  let rel ← s.changeable q.table
  let (rel, id) ← rel.insert s.now q.values
  return { s.replace rel with lastId := id }

/-- The rows of a table that meet a condition, and the arrangement in which they come. -/
def matching (rel : Relation) (condition : Option Condition) :
    Except Error (List Row × Arrangement) := do
  let source := baseSource rel
  let checks ← checksOfClause [source] condition
  let tour := changingTour source checks
  checkPatterns [source] tour
  let rows := (choices [source] tour).filterMap fun choice => choice.head?.join
  return (rows, (tour.legs.head?.map Leg.arrangement).getD (.byKey [] false))

/-- Whether rows can be changed as they come in an arrangement. They cannot be if the change moves
them in it. -/
def staysPut (changed : List Slot) : Arrangement → Bool
  | .byKey slots _ => !changed.contains .rowId && !slots.any changed.contains
  | .byBranch _ _ _ => false

/-- Sets columns of the rows that meet a condition; also gives their count. Rows that the change
would move are changed in the order of their row ids. -/
def update (s : Store) (q : Sql.Update) : Except Error (Store × Nat) := do
  checkUpdate q
  let rel ← s.changeable q.table
  let assignment ← rel.bind q.values
  let (rows, arrangement) ← matching rel q.condition
  let ids := rows.map Row.id
  let ordered := if staysPut (assignment.map (·.1)) arrangement then ids
    else ids.mergeSort fun a b => a ≤ b
  let rel ← rel.updateRows assignment ordered
  return (s.replace rel, rows.length)

/-- Removes the rows that meet a condition; also gives their count. -/
def delete (s : Store) (q : Sql.Delete) : Except Error (Store × Nat) := do
  checkDelete q
  let rel ← s.changeable q.table
  let (rows, _) ← matching rel q.condition
  let kept := rel.rows.filter fun r => !rows.any fun gone => gone.id = r.id
  return (s.replace { rel with rows := kept }, rows.length)

end Tabula.Store
