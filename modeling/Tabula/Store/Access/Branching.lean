import Tabula.Store.Access.Route

/-!
# Routes by branches

A disjunction of which every branch narrows down where to look in a source gives routes that take
one branch after the other. Their costs are the sums of the costs of the cheapest routes of the
branches.
-/

namespace Tabula.Store.Access

/-- What a route costs, without the route. -/
structure Offer where
  needs : Sources
  cost : Estimate
  rows : Estimate
  deriving Repr

namespace Offer

/-- How many offers are kept. -/
def maxKept : Nat := 3

/-- Whether none of some offers costs less. -/
def isCheapest (offers : List Offer) (o : Offer) : Bool :=
  offers.all fun other => o.cost ≤ other.cost

/-- An offer in the place of another. -/
def inPlaceOf (new old : Offer) : Offer := { new with rows := min old.rows new.rows }

/-- Replaces the first offer that passes a test. -/
def replaceFirst (test : Offer → Bool) (new : Offer) : List Offer → List Offer
  | [] => []
  | old :: offers =>
    if test old then new.inPlaceOf old :: offers else old :: replaceFirst test new offers

/-- Whether a new offer takes the place of an old one, or is needless beside it. -/
def settles? (new old : Offer) : Option Bool :=
  if new.cost ≤ old.cost && new.needs.isWithin old.needs then some true
  else if old.cost ≤ new.cost && old.needs.isWithin new.needs then some false
  else none

/-- Keeps an offer with others; when there are too many, in the place of the cheapest, if it costs
less. -/
def keep (offers : List Offer) (new : Offer) : List Offer :=
  match offers.findSome? new.settles? with
  | some true => replaceFirst (fun old => new.settles? old = some true) new offers
  | some false => offers
  | none =>
    if offers.length < maxKept then offers ++ [new]
    else
      if offers.any fun old => old.cost ≤ new.cost then offers
      else replaceFirst (isCheapest offers) new offers

/-- The offer of two branches together. -/
def both (a b : Offer) : Offer := ⟨a.needs.union b.needs, a.cost.sum b.cost, a.rows.sum b.rows⟩

/-- The offers of branches with those of one more. -/
def combine (offers more : List Offer) : List Offer :=
  (offers.flatMap fun a => more.map (both a)).foldl keep []

/-- The offers of some branches together, of which there is at least one. -/
def ofBranches : List (List Offer) → List Offer
  | [] => []
  | offers :: more => if more.any List.isEmpty then [] else more.foldl combine offers

/-- The route of an offer by the branches of a term. -/
def route (source : Nat) (position : Position) (o : Offer) : Route :=
  { source, means := .branches position, needs := o.needs, cost := o.cost + 1, rows := o.rows }

end Offer

/-- Keeps the offer of a route that is a search, its estimates brought in line with those of the
routes kept before. -/
def keepOffer (routes : List Route) (offers : List Offer) (r : Route) : List Offer :=
  if r.isSearch || !(r.means matches .guide _) then
    let r := r.align routes
    Offer.keep offers ⟨r.needs, r.cost, r.rows⟩
  else offers

mutual

/-- The routes of a source by the branches of the terms of a clause. -/
def branchRoutes (p : Problem) (main c : Clause) (source : Nat) (routes : List Route) :
    List Term → List Route
  | [] => []
  | t :: terms =>
    termRoutes p main c source routes t ++ branchRoutes p main c source routes terms

/-- The routes of a source by the branches of a term. -/
def termRoutes (p : Problem) (main c : Clause) (source : Nat) (routes : List Route) :
    Term → List Route
  | .leaf _ => []
  | .either position _ _ branches =>
    if branches.all fun terms => (Term.narrowed terms).has source then
      (Offer.ofBranches (offersOf p main c source routes branches)).map (·.route source position)
    else []

/-- The offers of each branch of a term. -/
def offersOf (p : Problem) (main c : Clause) (source : Nat) (routes : List Route) :
    List (List Term) → List (List Offer)
  | [] => []
  | terms :: branches =>
    let branch := c.branch terms
    let candidates := guidedRoutes p main branch source
      ++ branchRoutes p main branch source routes terms
    candidates.foldl (keepOffer routes) [] :: offersOf p main c source routes branches

end

/-- Keeps the routes of a source with those of the sources before it; also gives the rank that the
routes along automatic indexes of the next source have. -/
def addRoutes (p : Problem) (c : Clause) (allowsAutomatic : Bool) (routes : List Route) (rank : Nat)
    (source : Nat) : List Route × Nat :=
  let automatic := if allowsAutomatic then automaticRoutes p c source rank else []
  let routes := (automatic ++ guidedRoutes p c c source).foldl Route.keep routes
  let byBranches := branchRoutes p c c source routes c.terms
  let isBranched := c.terms.any fun
    | .leaf _ => false
    | .either _ _ _ branches => branches.all fun terms => (Term.narrowed terms).has source
  (byBranches.foldl Route.keep routes, if isBranched then 0 else lastRank p c source)

end Tabula.Store.Access
