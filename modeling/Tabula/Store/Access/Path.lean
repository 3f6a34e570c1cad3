import Tabula.Store.Access.Branching

/-!
# Paths

A path takes the sources of a statement one after the other, each by a route that needs no later
source. Of all paths the one with the least estimated cost is followed, where a path whose rows do
not come in the order asked for also costs the sorting.
-/

namespace Tabula.Store.Access

/-- A path, or the beginning of one. -/
structure Path where
  routes : List Route := []
  placed : Sources := .none
  rows : Estimate := 0
  cost : Estimate := 0
  /-- The cost without sorting. -/
  unsorted : Estimate := 0
  /-- How many of the first ordering terms the rows come in the order of, once that is settled. -/
  ordered : Option Nat := none
  /-- The places of the routes that are gone backwards. -/
  reversed : List Nat := []
  deriving Repr

/-! ## The order of rows -/

/-- How far the routes of a path order the rows. -/
structure Progress where
  /-- The positions of the ordering terms that are met. -/
  met : List Nat := []
  reversed : List Nat := []
  /-- Whether rows that are equal in what is met are the same row. -/
  isDistinct : Bool := true
  /-- The sources of which the rows are told apart by what is met. -/
  distinct : Sources := .none
  deriving Repr

/-- How far the parts of one guide order its rows. -/
structure Reading where
  met : List Nat
  isDistinct : Bool
  /-- Whether the guide is gone backwards, once that is settled. -/
  backwards? : Option Bool := none
  /-- Whether the row id is among what is met. -/
  meetsId : Bool := false

/-- The first ordering term that is not met. -/
def nextUnmet? (p : Problem) (met : List Nat) : Option (Nat × Place × Sql.Direction) :=
  (p.ordering.zipIdx.find? fun (_, k) => !met.contains k).map fun ((place, d), k) => (k, place, d)

/-- The ordering term that a slot of a source meets next, with its direction. -/
def metBy? (p : Problem) (source : Nat) (reading : Reading) (part : Part) :
    Option (Nat × Bool) := do
  let slot ← part
  let (k, place, d) ← nextUnmet? p reading.met
  let backwards := d == .descending
  if place.source = source && place.slot = slot && reading.backwards?.all (· == backwards) then
    some (k, backwards)
  else none

/-- Whether a comparison gives a part of a guide one value, where several count as one if the rows
come value by value. -/
def fixesPart (byValue : Bool) (n : Narrowing) : Bool :=
  if byValue then n.isLookup else n.isEquality

/-- Reads on from a part of a guide of a route. -/
def readParts (p : Problem) (byValue : Bool) (r : Route) (keys : Nat) :
    Reading → List (Part × Nat) → Reading
  | reading, [] => reading
  | reading, (part, j) :: parts =>
    let probe? := if j < r.known then r.terms[j]?.bind Leaf.probe? else none
    let narrowing? := probe?.map Probe.narrowing
    if narrowing?.any (fixesPart byValue) then
      let isDistinct := reading.isDistinct && narrowing? ≠ some .same
      readParts p byValue r keys { reading with isDistinct } parts
    else
      let isPresent := j < r.known || Guide.isPresent (p.relation r.source) part
      let isDistinct := reading.isDistinct && part.isSome && isPresent
      match metBy? p r.source reading part with
      | some (k, backwards) =>
        let reading := {
          met := reading.met ++ [k]
          isDistinct
          backwards? := some backwards
          meetsId := reading.meetsId || part = some .rowId }
        readParts p byValue r keys reading parts
      | none => { reading with isDistinct := isDistinct && 0 < j && keys ≤ j }

/-- The ordering terms of a source that have only one value once earlier sources are placed. -/
def fixedTerms (p : Problem) (c : Clause) (byValue : Bool) (ready : Sources) (r : Route)
    (met : List Nat) : List Nat :=
  p.ordering.zipIdx.filterMap fun ((place, _), k) =>
    if met.contains k || place.source ≠ r.source then none
    else
      let known := (c.seekers (fixesPart byValue) none place).filterMap fun t =>
        t.probe?.bind fun probe => if probe.needs.isWithin ready then some (t, probe) else none
      match (known.find? fun (_, probe) => probe.needs = .none).or known.head? with
      | none => none
      | some (t, probe) =>
        if probe.narrowing.isEquality || r.terms.any fun u => u.position = t.position then some k
        else none

/-- The guide that a route goes along, if there is one. -/
def guideOf? (p : Problem) (r : Route) : Option Guide :=
  match r.means with
  | .guide none => some .rowIds
  | .guide (some i) =>
    ((p.relation r.source).indexes[i]?).map fun index => .ofIndex (p.relation r.source) i index
  | .automatic | .branches _ => none

/-- Follows a route at a place of a path; nothing comes of a route whose rows are in no order. -/
def follow? (p : Problem) (c : Clause) (byValue : Bool) (ready : Sources) (place : Nat) (r : Route)
    (progress : Progress) : Option Progress := do
  let met := progress.met ++ fixedTerms p c byValue ready r progress.met
  let progress : Progress ← do
    if r.isSingle then pure { progress with met }
    else
      let g ← guideOf? p r
      let keys := if r.isById then 0 else g.keys.length
      let start : Reading := { met, isDistinct := true }
      let reading := readParts p byValue r keys start g.parts.zipIdx
      pure {
        met := reading.met
        reversed := progress.reversed
          ++ (if reading.backwards? = some true then [place] else [])
        isDistinct := reading.isDistinct || reading.meetsId
        distinct := progress.distinct }
  if !progress.isDistinct then return progress
  let distinct := progress.distinct.union (.one r.source)
  let told := p.ordering.zipIdx.filterMap fun ((place, _), k) =>
    if !progress.met.contains k && distinct.has place.source then some k else none
  return { progress with met := progress.met ++ told, distinct }

/-- How many of the first ordering terms are met. -/
def metCount (p : Problem) (met : List Nat) : Nat :=
  ((List.range p.ordering.length).takeWhile met.contains).length

/-- How far some progress meets the ordering: in so many of its first terms, unless that is not
settled. -/
def Progress.settled (p : Problem) (progress : Progress) : Option Nat :=
  let count := p.ordering.length
  if metCount p progress.met = count then some count
  else if progress.isDistinct then none
  else some (min (metCount p progress.met) (count - 1))

/-- How far the routes of a path, each with its place, meet the ordering. -/
def progressOf (p : Problem) (c : Clause) (byValue : Bool) :
    List (Route × Nat) → Sources → Progress → Option Nat × List Nat
  | [], _, progress => (progress.settled p, progress.reversed)
  | (r, place) :: routes, ready, progress =>
    if !progress.isDistinct || metCount p progress.met = p.ordering.length then
      (progress.settled p, progress.reversed)
    else if byValue && !routes.isEmpty then
      progressOf p c byValue routes (ready.union (.one r.source)) progress
    else
      match follow? p c byValue ready place r progress with
      | none => (some 0, progress.reversed)
      | some progress => progressOf p c byValue routes (ready.union (.one r.source)) progress

/-- The most ordering terms that are considered. -/
def maxOrderings : Nat := 63

/-- How many of the first ordering terms the rows of some routes come in the order of, if that is
settled, and the places of the routes that have to be gone backwards for it. With `byValue` only the
last route is asked for its order, and several values of a part count as one. -/
def orderOf (p : Problem) (c : Clause) (byValue : Bool) (routes : List Route) :
    Option Nat × List Nat :=
  if maxOrderings < p.ordering.length then (some 0, [])
  else progressOf p c byValue routes.zipIdx .none {}

/-! ## Comparing paths -/

/-- The cost of sorting so many rows that come in the order of the first `ordered` terms. -/
def sortingCost (p : Problem) (rows : Estimate) (ordered : Nat) : Estimate :=
  let count := p.ordering.length
  let part : Estimate :=
    if ordered = 0 then 0 else .ofNat ((count - ordered) * 100 / count) - 66
  rows + .ofNat ((p.width + 59) / 30) + part + Estimate.searchSteps rows

/-- A path with one more route. `sorting` is the count of rows to be sorted, if they are. -/
def Path.extend (p : Problem) (c : Clause) (sorting : Option Estimate) (path : Path) (r : Route) :
    Path :=
  let routes := path.routes ++ [r]
  let run := r.cost + path.rows
  let run := if r.setup = 0 then run else Estimate.sum r.setup run
  let run := Estimate.sum run path.unsorted
  let (ordered, reversed) :=
    match path.ordered, sorting with
    | none, some _ => orderOf p c false routes
    | ordered, _ => (ordered, path.reversed)
  let (cost, unsorted) :=
    match sorting, ordered with
    | some rows, some ordered =>
      if ordered < p.ordering.length then (run.sum (sortingCost p rows ordered) + 3, run)
      else (run, run - 2)
    | _, _ => (run, run - 2)
  { routes, placed := path.placed.union (.one r.source), rows := path.rows + r.rows
    cost, unsorted, ordered, reversed }

/-- The routes that a path can go on with. -/
def Path.onward (path : Path) (routes : List Route) : List Route :=
  routes.filter fun r =>
    r.needs.isWithin path.placed && !path.placed.has r.source
      && !(r.means = .automatic && path.rows < 3)

/-- Whether a path is no worse than another one over the same sources. -/
def Path.isNoWorse (a b : Path) : Bool :=
  if a.cost ≠ b.cost then a.cost < b.cost
  else if a.rows ≠ b.rows then a.rows < b.rows
  else a.unsorted ≤ b.unsorted

/-- Whether two paths have come equally far. -/
def Path.isAsFar (a b : Path) : Bool :=
  a.placed = b.placed && a.ordered.isNone = b.ordered.isNone

/-- The place of the path that is given up first, with its cost and its cost without sorting. -/
def worst (paths : List Path) : Nat × Estimate × Estimate :=
  match paths with
  | [] => (0, 0, 0)
  | first :: others =>
    (others.zipIdx 1).foldl (fun (place, cost, unsorted) (path, i) =>
      if cost < path.cost || (path.cost = cost && unsorted < path.unsorted) then
        (i, path.cost, path.unsorted)
      else (place, cost, unsorted)) (0, first.cost, first.rows)

/-- Keeps a path with others: in the place of a worse one that has come as far, else at the end, or
in the place of the worst one when there are `most` of them. -/
def keepPath (most : Nat) (paths : List Path) (new : Path) : List Path :=
  match paths.findIdx? new.isAsFar with
  | some i =>
    if (paths[i]?.map fun old => old.isNoWorse new).getD false then paths else paths.set i new
  | none =>
    if paths.length < most then paths ++ [new]
    else
      let (place, cost, unsorted) := worst paths
      if cost < new.cost || (new.cost = cost && unsorted ≤ new.unsorted) then paths
      else paths.set place new

/-- How many paths are kept at each step, by the number of sources. -/
def keptPaths (sources : Nat) : Nat :=
  if sources ≤ 1 then 1 else if sources = 2 then 5 else 10

/-- The paths that are kept after so many steps. -/
def pathsAfter (p : Problem) (c : Clause) (most : Nat) (sorting : Option Estimate)
    (routes : List Route) : Nat → List Path
  | 0 => [{ ordered := if sorting.isSome then none else some 0 }]
  | steps + 1 =>
    let candidates := (pathsAfter p c most sorting routes steps).flatMap fun path =>
      (path.onward routes).map (path.extend p c sorting)
    candidates.foldl (keepPath most) []

/-- The cheapest of some paths. -/
def cheapest : List Path → Path
  | [] => {}
  | first :: others =>
    others.foldl (fun best path => if path.cost < best.cost then path else best) first

/-- The path with the least cost over so many sources. -/
def bestPath (p : Problem) (c : Clause) (sources : Nat) (sorting : Option Estimate)
    (routes : List Route) : Path :=
  cheapest (pathsAfter p c (keptPaths sources) sorting routes sources)

/-- Routes without those that go through all of a source of which a first path looks rows up. -/
def withoutScans (routes : List Route) (first : Path) : List Route :=
  let lookedUp := first.routes.takeWhile fun r => r.looksUpOne || r.looksUpSeveral
  routes.filter fun r => r.isSearch || !(lookedUp.map Route.source).contains r.source

/-- A path with its last route gone backwards if the order asked for is met that way within it. -/
def orderWithin (p : Problem) (c : Clause) (path : Path) : Path :=
  match path.ordered, path.routes.getLast? with
  | some (_ + 1), _ | _, none => path
  | _, some last =>
    if last.isSingle || (last.isById && last.looksUpSeveral) then path
    else
      match orderOf p c true path.routes with
      | (some count, reversed) =>
        if count = p.ordering.length then { path with reversed } else path
      | _ => path

/-- The path to follow for sources of which the routes are given. -/
def choosePath (p : Problem) (c : Clause) (sources : Nat) (routes : List Route) : Path :=
  let first := bestPath p c sources none routes
  if p.ordering.isEmpty then first
  else
    let routes := withoutScans routes first
    orderWithin p c (bestPath p c sources (some (max 1 (first.rows + 1))) routes)

/-! ## Single rows -/

/-- The first comparison with a bound value that gives a slot one value. -/
def boundTo? (p : Problem) (c : Clause) (accepts : Narrowing → Bool) (isIndex : Bool)
    (part : Part) : Option Leaf := do
  let slot ← part
  let affinity := (p.relation 0).affinity slot
  let index := if isIndex && slot ≠ .rowId then some affinity else none
  (c.seekers accepts index ⟨0, slot, affinity⟩).find? fun t =>
    t.probe?.any fun probe => probe.needs = .none

/-- The route to the one row that a guide has for bound values, if they are given. Null is no value
where an index may have it more than once. -/
def singleRoute? (p : Problem) (c : Clause) (g : Guide) : Option Route := do
  let isId := g.index?.isNone
  if 3 < g.keys.length then none
  let accepts (n : Narrowing) : Bool := if isId || g.isTotal then n.isEquality else n = .equal
  let terms ← g.keys.mapM (boundTo? p c accepts (!isId))
  return {
    source := 0, means := .guide g.index?, terms, known := terms.length
    looksUpOne := true, isSingle := true }

/-- The path to a single row of a single source. -/
def singlePath? (p : Problem) (c : Clause) : Option Path :=
  match p.relations with
  | [rel] => (Guide.all rel).findSome? fun g =>
    (singleRoute? p c g).map fun r => { routes := [r], placed := .one 0 }
  | _ => none

end Tabula.Store.Access
