import Tabula.Store.Access.Path

/-!
# Tours

A tour is how a statement comes by its rows: its sources in some order, the rows of each in some
arrangement, and what a choice of rows has to meet. A comparison that a search answers is met if the
search finds the row: a search by row id looks for a whole number only.
-/

namespace Tabula.Store

/-! ## What searches find -/

/-- The row id that a search for a value looks for, if there can be one. -/
def soughtId? (value : Cell) : Option Cell :=
  match Affinity.integer.store value with
  | .int n => some (.int n)
  | _ => none

namespace Check

/-- The truth value of an equality as a search by row id answers it, for the row ids at a place. -/
def foundById (choice : Choice) (sought : Place) : Check → Truth
  | decided holds => .ofBool holds
  | value left method right =>
    match soughtId? right with
    | some key => (value left method key).eval choice
    | none => .false
  | list left method right =>
    (list left method (right.filterMap soughtId?)).eval choice
  | column left method right =>
    let other := if sought = left then right else left
    match soughtId? (cellAt choice other) with
    | some key => (value sought method key).eval choice
    | none => .false

/-- The truth value of a check as a search for the column at a place answers it. -/
def found (choice : Choice) (sought : Place) (c : Check) : Truth :=
  match sought.slot with
  | .rowId => c.foundById choice sought
  | .field _ => c.eval choice

end Check

namespace Access

/-- A check that is to be met, and the column for which a search answers it, if one does. -/
structure Goal where
  check : Check
  sought : Option Place := none
  deriving DecidableEq, Repr

namespace Goal

/-- The truth value of a goal for a choice of rows. -/
def eval (choice : Choice) (g : Goal) : Truth :=
  match g.sought with
  | none => g.check.eval choice
  | some column => g.check.found choice column

end Goal

/-! ## Arrangements -/

/-- In which order the rows of a source are taken. -/
inductive Arrangement where
  /-- By the cells of some slots, then by row id; or the other way round. -/
  | byKey (slots : List Slot) (isReversed : Bool)
  /-- First the rows that meet a goal, then the others. -/
  | byBranch (goal : Formula Goal) (inside outside : Arrangement)

namespace Arrangement

/-- The order of two rows by the cells of some slots, then by row id. -/
def compareKeys (a b : Row) : List Slot → Ordering
  | [] => compare a.id b.id
  | slot :: slots => ((a.cellOf slot).compare (b.cellOf slot)).then (compareKeys a b slots)

/-- The order of two rows of a source beside a choice of rows of other sources. -/
def compareRows (choice : Choice) (source : Nat) (a b : Row) : Arrangement → Ordering
  | byKey slots isReversed =>
    let order := compareKeys a b slots
    if isReversed then order.swap else order
  | byBranch goal inside outside =>
    let meets (r : Row) : Bool := (goal.eval (Goal.eval (choice.set source (some r)))).holds
    match meets a, meets b with
    | true, true => compareRows choice source a b inside
    | true, false => .lt
    | false, true => .gt
    | false, false => compareRows choice source a b outside

/-- Rows, given in ascending order of row id, in an arrangement. -/
def arrange (choice : Choice) (source : Nat) (rows : List Row) : Arrangement → List Row
  | byKey [] false => rows
  | byKey [] true => rows.reverse
  | a => rows.mergeSort fun r s => (a.compareRows choice source r s).isLE

/-- Whether an arrangement depends on the rows of other sources. -/
def dependsOnChoice : Arrangement → Bool
  | byKey _ _ => false
  | byBranch _ _ _ => true

end Arrangement

/-! ## Tours -/

/-- A source on a tour. -/
structure Leg where
  source : Nat
  arrangement : Arrangement

/-- How a statement comes by its rows. -/
structure Tour where
  legs : List Leg
  goals : List (Formula Goal)

/-- What following a route leads to: the arrangement of its rows, and the goals that take the place
of conjuncts by their positions. -/
structure Following where
  arrangement : Arrangement
  answered : List (Nat × Formula Goal) := []

/-- A formula of goals that no search answers. -/
def plainly (f : Formula Atom) : Formula Goal :=
  f.map fun a => ⟨a.check, none⟩

/-- The sources that a formula depends on. -/
def dependsOn (f : Formula Atom) : Sources :=
  .ofList ((f.atoms.flatMap Atom.free).map Place.source)

/-- The goal of a comparison that a search uses. Bounds on row ids, and row ids as keys, are taken
as they are. -/
def goalOf (t : Leaf) : Goal :=
  match t.probe? with
  | none => ⟨t.check, none⟩
  | some probe =>
    let keyIsId := probe.key?.any fun key => key.slot = .rowId
    let isPlain := match probe.column.slot with
      | .rowId => !probe.narrowing.isLookup
      | .field _ => keyIsId
    ⟨t.check, if isPlain then none else some probe.column⟩

/-- The goals of the conjuncts that a search answers by comparisons which do not depend on later
sources. -/
def answeredBy (later : Sources) (terms : List Leaf) : List (Nat × Formula Goal) :=
  terms.filterMap fun t =>
    match t.position.path with
    | [i] => if t.depends.meets later then none else some (i, .atom (goalOf t))
    | _ => none

/-- The comparisons that an index made for a source uses when some sources are placed. -/
def automaticTerms (p : Problem) (c : Clause) (placed : Sources) (source : Nat) : List Leaf :=
  ((automaticRoutes p c source 0).filter fun r => r.needs.isWithin placed).flatMap Route.terms

/-- The slots that a guide orders its rows by. -/
def orderedSlots (p : Problem) (r : Route) : List Slot :=
  match guideOf? p r with
  | some g => if r.isById then [] else g.keys.filterMap id
  | none => []

/-- The slots of a source that a statement looks at beside the row id, in column order. -/
def usedFields (p : Problem) (source : Nat) : List Slot :=
  ((List.range (p.relation source).fields.length).map Slot.field).filter
    (p.usedOf source).contains

/-- Whether a conjunct may be of use to a search in the branches of another one. -/
def isOfUse : Formula Atom → Bool
  | .atom a => (Narrowing.ofCheck? a.check).isSome
  | _ => true

/-- The arrangement that takes one branch after the other, each given with its goal. -/
def inBranches (branches : List (Formula Goal × Arrangement)) : Arrangement :=
  branches.foldr (fun (goal, inside) outside => .byBranch goal inside outside) (.byKey [] false)

/-- Follows a route of a source when some sources are placed and others are to come later; `depth`
bounds how deeply branches lie inside branches. -/
def followRoute (p : Problem) (conjuncts : List (Formula Atom)) (placed later : Sources)
    (r : Route) (isReversed : Bool) : Nat → Following
  | 0 => ⟨.byKey [] false, []⟩
  | depth + 1 =>
    match r.means with
    | .guide _ => ⟨.byKey (orderedSlots p r) isReversed, answeredBy later r.terms⟩
    | .automatic =>
      let c := Clause.ofConjuncts ((placed.union later).union (.one r.source)) conjuncts
      ⟨.byKey (usedFields p r.source) isReversed,
        answeredBy later (automaticTerms p c placed r.source)⟩
    | .branches position =>
      let i := position.path.headD 0
      let whole := conjuncts[i]?.getD (.all [])
      let known := later.union (.one r.source)
      let others := (conjuncts.zipIdx.filter fun (f, j) =>
        j ≠ i && (dependsOn f).meets known && isOfUse f).map (·.1)
      let inner := { p with ordering := [], isChange := false }
      let follow (branch : Formula Atom) : Formula Goal × Arrangement :=
        let own := branch.conjuncts
        let parts := own ++ others
        let c := Clause.ofConjuncts known parts
        let path := bestPath inner c 1 none (addRoutes inner c false [] 0 r.source).1
        let following := match path.routes with
          | route :: _ => followRoute inner parts .none later route false depth
          | [] => ⟨.byKey [] false, []⟩
        let goals := own.zipIdx.filterMap fun (f, j) =>
          if (dependsOn f).meets later then none
          else some ((following.answered.lookup j).getD (plainly f))
        (.all goals, following.arrangement)
      let branches := whole.disjuncts.map follow
      let isUntested := (whole :: others).any fun f => (dependsOn f).meets later
      let goal := Formula.any (branches.map (·.1))
      ⟨inBranches branches, [(i, if isUntested then .all [goal, plainly whole] else goal)]⟩

/-- Follows the routes of a path, each with its place. -/
def followPath (p : Problem) (conjuncts : List (Formula Atom)) (depth : Nat) (reversed : List Nat) :
    List (Route × Nat) → Sources → List (Nat × Formula Goal) → Tour
  | [], _, answered =>
    ⟨[], conjuncts.zipIdx.map fun (f, i) => (answered.lookup i).getD (plainly f)⟩
  | (r, place) :: routes, placed, answered =>
    let later := Sources.ofList (routes.map (·.1.source))
    let following := followRoute p conjuncts placed later r
      (reversed.contains place) depth
    let tour := followPath p conjuncts depth reversed routes (placed.union (.one r.source))
      (answered ++ following.answered)
    ⟨⟨r.source, following.arrangement⟩ :: tour.legs, tour.goals⟩

/-- The tour of a problem with its condition as conjuncts. -/
def tourOf (p : Problem) (conjuncts : List (Formula Atom)) : Tour :=
  let sources := List.range p.relations.length
  let c := Clause.ofConjuncts (.ofList sources) conjuncts
  let path := match singlePath? p c with
    | some path => path
    | none =>
      let add := fun (routes, rank) source => addRoutes p c true routes rank source
      choosePath p c sources.length (sources.foldl add ([], 0)).1
  let depth := (conjuncts.flatMap Formula.atoms).length + 1
  followPath p conjuncts depth path.reversed path.routes.zipIdx .none []

end Access

end Tabula.Store
