import Tabula.Store.Access.Term

/-!
# Routes

A route is a way to come by the rows of one source that a condition may hold for: all of them or
those that a search finds, by row id, along an index, along an index that is made for the occasion,
or branch by branch of a disjunction. The routes of a source are kept with estimates of their costs,
and only those that no other route makes needless.
-/

namespace Tabula.Store.Access

/-! ## Estimates

Counts of rows and costs are guessed before a statement runs, and only roughly compared. An
estimate is ten times the binary logarithm of the quantity, so that products become sums. -/

/-- Ten times the binary logarithm of a count or a cost. -/
abbrev Estimate := Int

namespace Estimate

/-- Ten times the binary logarithm of a number from one to two, by the eighth it lies in. -/
def eighths : List Estimate := [0, 2, 3, 5, 6, 7, 8, 9]

/-- The estimate of a number; of nothing it is that of one. -/
def ofNat (n : Nat) : Estimate :=
  let exponent := n.log2
  10 * exponent + (eighths[(n <<< 3) >>> exponent - 8]?.getD 0)

/-- What a quantity adds to another, by how much greater that estimate is. -/
def increments : List Estimate :=
  [10, 10, 9, 9, 8, 8, 7, 7, 7, 6, 6, 6, 5, 5, 5, 4, 4, 4, 4, 3, 3, 3, 3, 3, 3, 2, 2, 2, 2, 2, 2, 2]

/-- How far apart estimates may be before the lesser one does not count. -/
def farthest : Nat := 49

/-- The estimate of the sum of two quantities. -/
def sum (a b : Estimate) : Estimate :=
  let apart := (a - b).natAbs
  max a b + (if apart ≤ farthest then increments[apart]?.getD 1 else 0)

/-- The estimate of the binary logarithm of a quantity, the number of steps that a search among so
many rows takes. -/
def searchSteps (n : Estimate) : Estimate :=
  if n ≤ 10 then 0 else ofNat n.toNat - 33

end Estimate

/-! ## What is to be read -/

/-- A statement as the search for rows sees it. -/
structure Problem where
  relations : List Relation
  /-- The slots of each source that the statement looks at. -/
  used : List (List Slot)
  /-- What the rows are to be ordered by. -/
  ordering : List (Place × Sql.Direction)
  /-- How many columns a row of the result has. -/
  width : Nat
  /-- Whether the rows are to be changed. -/
  isChange : Bool

/-- A part of an index: a slot, or a constant. -/
abbrev Part := Option Slot

/-- An index, or the row ids themselves, with the estimates that come with it. -/
structure Guide where
  /-- The position of the index; row ids have none. -/
  index? : Option Nat
  /-- What the entries differ by. -/
  keys : List Part
  /-- The number of rows with the same first parts, by the number of parts. -/
  counts : List Estimate
  /-- The size of an entry. -/
  size : Estimate
  /-- Whether no part of the key is ever null. -/
  isTotal : Bool

namespace Problem

/-- A source. -/
def relation (p : Problem) (source : Nat) : Relation :=
  p.relations[source]?.getD ⟨"", [], none, [], []⟩

/-- The slots of a source that are looked at. -/
def usedOf (p : Problem) (source : Nat) : List Slot := p.used[source]?.getD []

end Problem

/-- How many rows a table is taken to have. -/
def tableRows : Estimate := 200

/-- The cost of a search among the rows of a table. -/
def searchCost : Estimate := Estimate.searchSteps tableRows

/-- The relative size of a slot. -/
def slotSize (rel : Relation) (slot : Slot) : Nat :=
  match rel.affinity slot with
  | .text => 5
  | _ => 1

/-- The relative size of a row. -/
def rowSize (rel : Relation) : Estimate :=
  let own := if rel.idField.isNone then 1 else 0
  let size := (List.range rel.fields.length).foldl (fun n i => n + slotSize rel (.field i)) own
  .ofNat (4 * size)

namespace Guide

/-- The guide by row id. -/
def rowIds : Guide := ⟨none, [some .rowId], [tableRows, 0], 3, false⟩

/-- How many rows there are for one value of the first, second and so on part of an index. -/
def usualCounts : List Estimate := [33, 32, 30, 28, 26]

/-- How many rows there are for values of more parts than that. -/
def laterCount : Estimate := 23

/-- The part of an index that a term of it is. -/
def part (rel : Relation) : IndexTerm → Part
  | .column position => some (rel.slotAt position)
  | .constant _ => none

/-- Whether a part of an index is never null. -/
def isPresent (rel : Relation) : Part → Bool
  | none => false
  | some .rowId => true
  | some (.field position) => (rel.fields[position]?.map Field.notNull).getD false

/-- The guide along an index. Entries with the same key differ by row id. -/
def ofIndex (rel : Relation) (position : Nat) (i : Index) : Guide :=
  let keys := i.terms.map (part rel)
  let size (n : Nat) : Part → Nat
    | some slot => n + slotSize rel slot
    | none => n + 1
  let inner := (List.range (keys.length - 1)).map fun n => usualCounts[n]?.getD laterCount
  { index? := some position
    keys
    counts := tableRows :: inner ++ [0, 0]
    size := .ofNat (4 * keys.foldl size 1)
    isTotal := keys.all (isPresent rel) }

/-- The guides of a source: its row ids, then its indexes. -/
def all (rel : Relation) : List Guide :=
  rowIds :: rel.indexes.zipIdx.map fun (i, position) => ofIndex rel position i

/-- What the entries of a guide are ordered by. -/
def parts (g : Guide) : List Part :=
  if g.index?.isSome then g.keys ++ [some .rowId] else g.keys

/-- Whether a slot can be read without looking at the row. -/
def shows (g : Guide) (slot : Slot) : Bool :=
  slot = .rowId || g.keys.contains (some slot)

/-- Whether all that a statement looks at in a source can be read along a guide. -/
def covers (g : Guide) (p : Problem) (source : Nat) : Bool :=
  (p.usedOf source).all g.shows

/-- Whether the order of the entries of a guide may be of use. -/
def mayOrder (g : Guide) (p : Problem) (source : Nat) : Bool :=
  p.ordering.any fun (place, _) => place.source = source && g.shows place.slot

/-- The cost of coming by an entry, relative to a row. -/
def stepCost (g : Guide) (rel : Relation) : Estimate :=
  if g.index?.isSome then 1 + 15 * g.size / rowSize rel else rowCost
where
  /-- The cost of coming by a row. -/
  rowCost : Estimate := 16

/-- How the number of rows changes with one more part that has a given value. -/
def narrowing (g : Guide) (known : Nat) : Estimate :=
  (g.counts[known + 1]?.getD 0) - (g.counts[known]?.getD 0)

end Guide

/-! ## Routes -/

/-- By what a route goes. -/
inductive Means where
  | guide (index? : Option Nat)
  /-- An index of one column that is made for the occasion. -/
  | automatic
  /-- The branches of the term at a position. -/
  | branches (position : Position)
  deriving DecidableEq, Repr

/-- A way to come by the rows of a source. -/
structure Route where
  source : Nat
  means : Means
  /-- The comparisons that the search uses. -/
  terms : List Leaf := []
  /-- How many parts of the guide have given values. -/
  known : Nat := 0
  hasLower : Bool := false
  hasUpper : Bool := false
  /-- Whether some part has one given value, and whether some has several. -/
  looksUpOne : Bool := false
  looksUpSeveral : Bool := false
  isSingle : Bool := false
  /-- Whether no row needs to be looked at. -/
  isCovering : Bool := false
  /-- The sources that come before. -/
  needs : Sources := .none
  /-- The order that the rows come in, if it may be of use. -/
  rank : Nat := 0
  setup : Estimate := 0
  cost : Estimate := 0
  rows : Estimate := tableRows
  deriving Repr

namespace Route

/-- Whether a route goes along an index. -/
def isIndexed (r : Route) : Bool :=
  match r.means with
  | .guide index? => index?.isSome
  | _ => false

/-- Whether a route goes by row id. -/
def isById (r : Route) : Bool := r.means = .guide none

/-- Whether a route is a search. -/
def isSearch (r : Route) : Bool :=
  r.looksUpOne || r.looksUpSeveral || r.hasLower || r.hasUpper || r.means = .automatic

/-! ### Keeping routes -/

/-- Whether a route along an index uses less than another one. -/
def usesLess (a b : Route) : Bool :=
  if b.cost < a.cost && b.rows < a.rows then false
  else if a.known < b.known && a.means = b.means then true
  else
    a.terms.length < b.terms.length
      && a.terms.all (fun t => b.terms.any fun u => t.position = u.position)
      && (b.isCovering || !a.isCovering)

/-- A route with its estimates brought in line with those of a route kept before: what uses less
costs no more, and leaves no fewer rows. -/
def alignWith (r kept : Route) : Route :=
  if kept.source ≠ r.source || !kept.isIndexed then r
  else if kept.usesLess r then
    { r with cost := min kept.cost r.cost, rows := min (kept.rows - 1) r.rows }
  else if r.usesLess kept then
    { r with cost := max kept.cost r.cost, rows := max (kept.rows + 1) r.rows }
  else r

/-- A route with its estimates brought in line with those of the routes kept before. -/
def align (r : Route) (routes : List Route) : Route :=
  if r.isIndexed then routes.foldl alignWith r else r

/-- What a new route does to one kept before. -/
inductive Verdict where
  | unrelated
  | needless
  | better

/-- Whether a new route is needless beside an old one, or better than it. -/
def judge (new old : Route) : Verdict :=
  if old.source ≠ new.source || old.rank ≠ new.rank then .unrelated
  else if old.means = .automatic && new.isIndexed && new.looksUpOne
      && new.needs.isWithin old.needs then .better
  else if old.needs.isWithin new.needs && old.setup ≤ new.setup && old.cost ≤ new.cost
      && old.rows ≤ new.rows then .needless
  else if new.needs.isWithin old.needs && new.cost ≤ old.cost && new.rows ≤ old.rows then .better
  else .unrelated

/-- Routes without those that a new one is better than, up to one beside which it is needless. -/
def dropWorse (new : Route) : List Route → List Route
  | [] => []
  | old :: routes =>
    match judge new old with
    | .unrelated => old :: dropWorse new routes
    | .needless => old :: routes
    | .better => dropWorse new routes

/-- Routes with a new one in the place of the first that it is better than, or at the end; unless it
is needless. -/
def place? (new : Route) : List Route → Option (List Route)
  | [] => some [new]
  | old :: routes =>
    match judge new old with
    | .unrelated => (place? new routes).map (old :: ·)
    | .needless => none
    | .better => some (new :: dropWorse new routes)

/-- Keeps a new route with others. -/
def keep (routes : List Route) (r : Route) : List Route :=
  (place? (r.align routes) routes).getD routes

end Route

/-! ## Searches -/

/-- The number of rows that are left when the terms of a clause that a route does not use but that
can be decided after it are taken into account. -/
def rowsAfter (c : Clause) (r : Route) : Estimate :=
  let decided := c.base.filter fun t =>
    t.depends.isWithin (r.needs.union (.one r.source)) && t.depends.has r.source
      && !(r.terms.any fun u => u.position.path = t.position.path)
  let most := tableRows - (if decided.any Term.isEquality then 20 else 0)
  min (r.rows - decided.length) most

/-- A route with fewer rows because of the other terms of a clause. -/
def Route.reduced (r : Route) (c : Clause) : Route := { r with rows := rowsAfter c r }

/-- The routes by an index that is made for one comparison. -/
def automaticRoutes (p : Problem) (c : Clause) (source rank : Nat) : List Route :=
  (c.terms.filterMap Term.leaf?).filterMap fun t => do
    let probe ← t.probe?
    let position ← match probe.column.slot with
      | .field position => some position
      | .rowId => none
    let affinity := (p.relation source).affinity (.field position)
    if probe.column.source = source && probe.narrowing.isEquality && !probe.needs.has source
        && probe.fits affinity then
      some {
        source, means := .automatic, terms := [t], known := 1, needs := probe.needs, rank
        setup := searchCost + tableRows + 28
        cost := searchCost.sum 43
        rows := 43 }
    else none

/-- A search that knows one more part of a guide, or a bound of it. -/
structure Step where
  /-- The route as it is kept. -/
  route : Route
  /-- The route as it is carried on with. -/
  onward : Route
  /-- The number of searches for different values, so far. -/
  searches : Estimate

/-- How many rows are left of some when a part has bounds. -/
def boundedRows (rows : Estimate) (hasLower hasUpper : Bool) : Estimate :=
  let bounds : Estimate := (if hasLower then 1 else 0) + (if hasUpper then 1 else 0)
  let guess := rows - 20 * bounds - (if hasLower && hasUpper then 20 else 0)
  min (rows - bounds) (max guess 10)

/-- The next step of a search along a guide by a comparison. -/
def extend (p : Problem) (c : Clause) (g : Guide) (r : Route) (searches : Estimate) (part : Part)
    (t : Leaf) (probe : Probe) : Step :=
  let rel := p.relation r.source
  let base := { r with
    terms := r.terms ++ [t]
    needs := (r.needs.union probe.needs).remove r.source }
  let isRowId := g.index?.isNone || r.known = g.keys.length
  let isLast := r.known + 1 = g.keys.length
  let onward : Route := match probe.narrowing with
    | .among _ =>
      { base with
        known := r.known + 1, looksUpSeveral := true, rows := r.rows + g.narrowing r.known }
    | .above | .atLeast => { base with hasLower := true }
    | .below | .atMost => { base with hasUpper := true }
    | n =>
      let isSingle := isRowId
        || (part.isSome && searches = 0 && isLast
          && (g.isTotal || (g.keys.length = 1 && n = .equal)))
      { base with
        known := r.known + 1, looksUpOne := true, isSingle := base.isSingle || isSingle
        rows := r.rows + g.narrowing r.known }
  let isBounded := onward.hasLower || onward.hasUpper
  let rows := if isBounded then boundedRows r.rows onward.hasLower onward.hasUpper else onward.rows
  let entries := searchCost.sum (rows + g.stepCost rel)
  let cost := if r.isCovering || g.index?.isNone then entries
    else entries.sum (rows + Guide.stepCost.rowCost)
  let searches := searches + match probe.narrowing with
    | .among count => Estimate.ofNat count
    | _ => 0
  let route := { onward with cost := cost + searches, rows := rows + searches }
  ⟨route.reduced c, onward, searches⟩

/-- The steps that comparisons allow at a part of a guide. -/
def stepsAt (p : Problem) (c : Clause) (g : Guide) (r : Route) (searches : Estimate) (part : Part)
    (accepts : Narrowing → Bool) : List (Narrowing × Step) :=
  match part with
  | none => []
  | some slot =>
    let rel := p.relation r.source
    let column : Place := ⟨r.source, slot, rel.affinity slot⟩
    let index := if slot = .rowId then none else some column.affinity
    (c.seekers accepts index column).filterMap fun t => do
      let probe ← t.probe?
      if probe.needs.has r.source then none
      else some (probe.narrowing, extend p c g r searches part t probe)

/-- The routes of a search along a guide that go on from a route at the parts that are not known. -/
def searchesFrom (p : Problem) (c : Clause) (g : Guide) (r : Route) (searches : Estimate) :
    List Part → List Route
  | [] => []
  | part :: parts =>
    (stepsAt p c g r searches part fun _ => true).flatMap fun (n, step) =>
      if n.isLookup then
        step.route :: searchesFrom p c g step.onward step.searches parts
      else if n.isLower then
        step.route :: (stepsAt p c g step.onward step.searches part Narrowing.isUpper).map
          (·.2.route)
      else [step.route]

/-- The cost of looking at the rows of all entries of an index, less those that the terms of a
clause make needless. -/
def lookCost (main : Clause) (g : Guide) (source : Nat) : Estimate :=
  let shown := main.terms.takeWhile fun t =>
    t.places.all fun place => place.source ≠ source || g.shows place.slot
  shown.foldl (fun cost t => cost - if t.isEquality then 20 else 1) 216

/-- The route along all of a guide, and whether it is worth considering. -/
def fullRoute (p : Problem) (main : Clause) (source : Nat) (g : Guide) (rank : Nat) :
    Route × Bool :=
  let rel := p.relation source
  let base : Route := { source, means := .guide g.index? }
  let mayOrder := g.mayOrder p source
  let rank := if mayOrder then rank else 0
  match g.index? with
  | none => ({ base with rank, cost := tableRows + 16 }, true)
  | some _ =>
    let isCovering := g.covers p source
    if mayOrder || (isCovering && g.size < rowSize rel && !p.isChange) then
      let entries := tableRows + g.stepCost rel
      let cost := if isCovering then entries else entries.sum (lookCost main g source)
      ({ base with rank, isCovering, cost }, true)
    else ({ base with isCovering }, false)

/-- The routes of a source along its guides, for a clause. -/
def guidedRoutes (p : Problem) (main c : Clause) (source : Nat) : List Route :=
  (Guide.all (p.relation source)).zipIdx.flatMap fun (g, i) =>
    let (full, isWorth) := fullRoute p main source g (i + 1)
    (if isWorth then [full.reduced c] else []) ++ searchesFrom p c g full 0 g.parts

/-- The rank that the last guide of a source has. -/
def lastRank (p : Problem) (main : Clause) (source : Nat) : Nat :=
  let guides := Guide.all (p.relation source)
  match guides.getLast? with
  | some g => (fullRoute p main source g guides.length).1.rank
  | none => 0

end Tabula.Store.Access
