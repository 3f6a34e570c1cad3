import Tabula.Proofs.Store.Tables
import Tabula.Store.Access.Tour

/-!
# What a tour depends on

How a statement comes by its rows is decided before any of them is looked at: costs are estimated by the
columns and indexes of the tables alone. Main statement: a problem has the tour that it has with no rows
in its tables (`tourOf_emptied`).
-/

namespace Tabula.Store

namespace Relation

variable (rel : Relation)

@[simp] theorem fields_emptied : rel.emptied.fields = rel.fields := rfl

@[simp] theorem idField_emptied : rel.emptied.idField = rel.idField := rfl

@[simp] theorem indexes_emptied : rel.emptied.indexes = rel.indexes := rfl

/-- The affinities of a table do not depend on its rows. -/
@[simp] theorem affinity_emptied (slot : Slot) : rel.emptied.affinity slot = rel.affinity slot := by
  cases slot <;> rfl

end Relation

namespace Access

variable (rel : Relation) (p : Problem) (c main : Clause) (source : Nat)

/-! ## Guides -/

/-- How large a slot is taken to be follows from its declaration. -/
@[simp] theorem slotSize_emptied (slot : Slot) : slotSize rel.emptied slot = slotSize rel slot := by
  simp [slotSize]

/-- How large a row is taken to be follows from the declarations of its slots. -/
@[simp] theorem rowSize_emptied : rowSize rel.emptied = rowSize rel := by
  simp [rowSize]

namespace Guide

/-- The part of a row that an index keeps does not depend on the rows that there are. -/
@[simp] theorem part_emptied : part rel.emptied = part rel := by
  funext term
  cases term <;> rfl

/-- Whether a slot is kept in each row does not depend on the rows that there are. -/
@[simp] theorem isPresent_emptied : isPresent rel.emptied = isPresent rel := by
  funext part
  rcases part with _ | _ | _ <;> rfl

/-- The guide of an index does not depend on the rows that there are. -/
@[simp] theorem ofIndex_emptied (position : Nat) (i : Index) :
    ofIndex rel.emptied position i = ofIndex rel position i := by
  simp [ofIndex]

/-- The guides of a table are those of the table without rows. -/
@[simp] theorem all_emptied : all rel.emptied = all rel := by
  simp [all]

/-- A step along a guide costs the same whatever the rows are. -/
@[simp] theorem stepCost_emptied (g : Guide) : g.stepCost rel.emptied = g.stepCost rel := by
  simp [stepCost]

end Guide

/-! ## Problems -/

/-- A problem with no rows in its tables. -/
def Problem.emptied (p : Problem) : Problem :=
  { p with relations := p.relations.map Relation.emptied }

namespace Problem

/-- The sources of a problem without rows are the tables without rows. -/
@[simp] theorem relation_emptied : p.emptied.relation source = (p.relation source).emptied := by
  unfold relation emptied
  rw [List.getElem?_map]
  cases p.relations[source]? <;> rfl

@[simp] theorem usedOf_emptied : p.emptied.usedOf source = p.usedOf source := rfl

@[simp] theorem ordering_emptied : p.emptied.ordering = p.ordering := rfl

/-- A problem without rows has as many sources. -/
@[simp] theorem length_relations_emptied :
    p.emptied.relations.length = p.relations.length := by
  simp [emptied]

end Problem

/-! ## Routes -/

section Routes

variable (g : Guide) (r : Route) (searches : Estimate)

/-- The routes along indexes that are made for the occasion do not depend on the rows. -/
@[simp] theorem automaticRoutes_emptied (rank : Nat) :
    automaticRoutes p.emptied c source rank = automaticRoutes p c source rank := by
  simp [automaticRoutes]

/-- A search is extended by one more part whatever the rows are. -/
@[simp] theorem extend_emptied (part : Part) (t : Leaf) (probe : Probe) :
    extend p.emptied c g r searches part t probe = extend p c g r searches part t probe := by
  simp [extend]

/-- So it is by every probe of that part. -/
@[simp] theorem stepsAt_emptied (part : Part) (accepts : Narrowing → Bool) :
    stepsAt p.emptied c g r searches part accepts = stepsAt p c g r searches part accepts := by
  cases part with
  | none => rfl
  | some slot => simp [stepsAt]

/-- The searches along a guide do not depend on the rows. -/
@[simp] theorem searchesFrom_emptied (parts : List Part) :
    searchesFrom p.emptied c g r searches parts = searchesFrom p c g r searches parts := by
  induction parts generalizing r searches with
  | nil => rfl
  | cons part parts ih => simp [searchesFrom, ih]

/-- The route through all rows costs the same whatever they are. -/
@[simp] theorem fullRoute_emptied (rank : Nat) :
    fullRoute p.emptied main source g rank = fullRoute p main source g rank := by
  unfold fullRoute
  dsimp only
  rw [Problem.relation_emptied, rowSize_emptied, Guide.stepCost_emptied]
  rfl

/-- The routes along the guides of a table do not depend on the rows. -/
@[simp] theorem guidedRoutes_emptied :
    guidedRoutes p.emptied main c source = guidedRoutes p main c source := by
  simp [guidedRoutes]

/-- Routes are numbered the same whatever the rows are. -/
@[simp] theorem lastRank_emptied : lastRank p.emptied main source = lastRank p main source := by
  simp [lastRank]

end Routes

/-! ## Branches -/

mutual

/-- The routes of the branches of a disjunction do not depend on the rows. -/
theorem branchRoutes_emptied (p : Problem) (main c : Clause) (source : Nat) (routes : List Route) :
    ∀ terms, branchRoutes p.emptied main c source routes terms
      = branchRoutes p main c source routes terms
  | [] => by
    rw [branchRoutes, branchRoutes]
  | t :: terms => by
    rw [branchRoutes, branchRoutes, termRoutes_emptied p main c source routes t,
      branchRoutes_emptied p main c source routes terms]

/-- Nor do those of a single term. -/
theorem termRoutes_emptied (p : Problem) (main c : Clause) (source : Nat) (routes : List Route) :
    ∀ t, termRoutes p.emptied main c source routes t = termRoutes p main c source routes t
  | .leaf _ => by
    rw [termRoutes, termRoutes]
  | .either position depends places branches => by
    rw [termRoutes, termRoutes, offersOf_emptied p main c source routes branches]

/-- Nor do the offers that branches make. -/
theorem offersOf_emptied (p : Problem) (main c : Clause) (source : Nat) (routes : List Route) :
    ∀ branches, offersOf p.emptied main c source routes branches
      = offersOf p main c source routes branches
  | [] => by
    rw [offersOf, offersOf]
  | terms :: branches => by
    rw [offersOf, offersOf, offersOf_emptied p main c source routes branches]
    rw [branchRoutes_emptied p main (c.branch terms) source routes terms, guidedRoutes_emptied]

end

/-- All routes of a source are the same without its rows. -/
@[simp] theorem addRoutes_emptied (allowsAutomatic : Bool) (routes : List Route) (rank : Nat) :
    addRoutes p.emptied c allowsAutomatic routes rank source
      = addRoutes p c allowsAutomatic routes rank source := by
  simp [addRoutes, branchRoutes_emptied]

/-! ## Paths -/

section Paths

variable (r : Route) (byValue : Bool) (sorting : Option Estimate) (routes : List Route)

theorem metBy?_emptied (reading : Reading) (part : Part) :
    metBy? p.emptied source reading part = metBy? p source reading part := rfl

/-- How far a route reads the parts that rows are ordered by does not depend on the rows. -/
theorem readParts_emptied (keys : Nat) (parts : List (Part × Nat)) (reading : Reading) :
    readParts p.emptied byValue r keys reading parts = readParts p byValue r keys reading parts := by
  induction parts generalizing reading with
  | nil => rfl
  | cons part parts ih =>
      obtain ⟨part, j⟩ := part
      simp [readParts, ih, metBy?_emptied]

/-- A route follows the same guide without the rows. -/
@[simp] theorem guideOf?_emptied : guideOf? p.emptied r = guideOf? p r := by
  simp [guideOf?]

/-- One more route orders the rows as far as it does without them. -/
@[simp] theorem follow?_emptied (ready : Sources) (place : Nat) (progress : Progress) :
    follow? p.emptied c byValue ready place r progress
      = follow? p c byValue ready place r progress := by
  simp [follow?, readParts_emptied, fixedTerms]

/-- So do the routes that are taken one after the other. -/
theorem progressOf_emptied (routes : List (Route × Nat)) (ready : Sources) (progress : Progress) :
    progressOf p.emptied c byValue routes ready progress
      = progressOf p c byValue routes ready progress := by
  induction routes generalizing ready progress with
  | nil => rfl
  | cons route routes ih =>
      obtain ⟨r, place⟩ := route
      unfold progressOf
      rw [follow?_emptied]
      simp only [ih]
      rfl

/-- The order that a path gives does not depend on the rows. -/
@[simp] theorem orderOf_emptied : orderOf p.emptied c byValue routes = orderOf p c byValue routes := by
  simp [orderOf, progressOf_emptied]

/-- A path is extended by one more route whatever the rows are. -/
@[simp] theorem Path.extend_emptied : Path.extend p.emptied = Path.extend p := by
  funext c sorting path r
  unfold Path.extend
  simp only [orderOf_emptied]
  rfl

/-- The paths that are kept after some steps do not depend on the rows. -/
theorem pathsAfter_emptied (most steps : Nat) :
    pathsAfter p.emptied c most sorting routes steps = pathsAfter p c most sorting routes steps := by
  induction steps with
  | zero => rfl
  | succ steps ih => simp [pathsAfter, ih]

/-- Nor does the best of them. -/
@[simp] theorem bestPath_emptied (sources : Nat) :
    bestPath p.emptied c sources sorting routes = bestPath p c sources sorting routes := by
  simp [bestPath, pathsAfter_emptied]

/-- The path through all sources that is chosen does not depend on the rows. -/
@[simp] theorem choosePath_emptied (sources : Nat) :
    choosePath p.emptied c sources routes = choosePath p c sources routes := by
  simp [choosePath, orderWithin]

end Paths

/-- Whether a slot is bound to one value does not depend on the rows. -/
theorem boundTo?_emptied (accepts : Narrowing → Bool) (isIndex : Bool) :
    boundTo? p.emptied c accepts isIndex = boundTo? p c accepts isIndex := by
  funext part
  simp [boundTo?]

/-- Nor does the route to a single row along a guide. -/
theorem singleRoute?_emptied (g : Guide) : singleRoute? p.emptied c g = singleRoute? p c g := by
  simp [singleRoute?, boundTo?_emptied]

/-- Nor does the path to a single row. -/
@[simp] theorem singlePath?_emptied : singlePath? p.emptied c = singlePath? p c := by
  have hrelations : p.emptied.relations = p.relations.map Relation.emptied := rfl
  unfold singlePath?
  simp only [singleRoute?_emptied, hrelations]
  rcases p.relations with _ | ⟨rel, _ | ⟨other, relations⟩⟩
  · rfl
  · simp
  · rfl

/-! ## Tours -/

/-- The terms that an index is made for do not depend on the rows. -/
@[simp] theorem automaticTerms_emptied (placed : Sources) :
    automaticTerms p.emptied c placed source = automaticTerms p c placed source := by
  simp [automaticTerms]

/-- A route keeps the same slots in order without the rows. -/
@[simp] theorem orderedSlots_emptied (r : Route) : orderedSlots p.emptied r = orderedSlots p r := by
  simp [orderedSlots]

/-- The fields that a statement uses do not depend on the rows. -/
@[simp] theorem usedFields_emptied : usedFields p.emptied source = usedFields p source := by
  simp [usedFields]

/-- What is done along a route does not depend on the rows. -/
theorem followRoute_emptied (conjuncts : List (Formula Atom)) (placed later : Sources) (r : Route)
    (isReversed : Bool) (depth : Nat) :
    followRoute p.emptied conjuncts placed later r isReversed depth
      = followRoute p conjuncts placed later r isReversed depth := by
  induction depth generalizing p conjuncts placed r isReversed with
  | zero => rfl
  | succ depth ih =>
      -- The branches are problems of their own, with the same tables.
      have hinner : { p.emptied with ordering := [], isChange := false }
          = Problem.emptied { p with ordering := [], isChange := false } := rfl
      unfold followRoute
      rw [hinner]
      simp [ih]

/-- What is done along a whole path does not depend on the rows. -/
theorem followPath_emptied (conjuncts : List (Formula Atom)) (depth : Nat) (reversed : List Nat)
    (routes : List (Route × Nat)) (placed : Sources) (answered : List (Nat × Formula Goal)) :
    followPath p.emptied conjuncts depth reversed routes placed answered
      = followPath p conjuncts depth reversed routes placed answered := by
  induction routes generalizing placed answered with
  | nil => rfl
  | cons route routes ih =>
      obtain ⟨r, place⟩ := route
      simp [followPath, ih, followRoute_emptied]

/-- **A tour does not depend on rows.** -/
theorem tourOf_emptied (conjuncts : List (Formula Atom)) :
    tourOf p.emptied conjuncts = tourOf p conjuncts := by
  simp [tourOf, followPath_emptied]

end Access

end Tabula.Store
