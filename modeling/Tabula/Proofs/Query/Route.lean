import Tabula.Proofs.Query.Acceptance
import Tabula.Proofs.Query.SourceNames

/-!
# Routes of joins

The chain of an alias is a route: it starts at the base table and comes to one more table with every
element. Main statement: the plan of some joins is made of one route for each alias, in their order,
in which every step starts at the stop before it; and an alias stands for the table of its last stop
(`exists_routes_of_plan`).
-/

namespace Tabula.Join

open Sql (JoinStep)

variable {catalog : Catalog} {base : Table}

/-! ## Stops -/

/-- A table by the name that it goes by in a statement. -/
structure Stop where
  name : String
  table : Table

/-- Whether a step leads from one stop to the next, as an element of a chain says: it compares a
column of the one table with a column of the other, which the catalog has under the name that the
element gives. -/
structure Connects (catalog : Catalog) (element : List String) (here there : Stop)
    (s : JoinStep) : Prop where
  element_eq : ∃ target, element = [s.left.column, s.method.name, target, s.rightColumn] ∧
    catalog.table? target = some there.table
  source : s.left.source = here.name
  left : here.table.Has s.left.column
  takesNoList : s.method.takesList = false
  table : s.table = there.table.name
  aliasName : s.aliasName = there.name
  right : there.table.Has s.rightColumn

theorem connects_of_step {aliasName source : String} {t joined : Table} {index : Nat} {last : Bool}
    {element : List String} {s : JoinStep}
    (h : step catalog aliasName source t index last element = .ok (s, joined)) :
    Connects catalog element ⟨source, t⟩ ⟨stepAlias aliasName index last, joined⟩ s := by
  obtain ⟨m, _, target, _, hparts, hlist, htarget, -, -⟩ := exists_step_iff.1 ⟨s, h⟩
  obtain ⟨left, right, name, _, method, rfl, hmethod, hleft, hright, -, rfl⟩ := step_eq_ok h
  obtain rfl := Comparison.ofName?_eq_some_iff.1 hmethod
  obtain ⟨-, hname, rfl, -⟩ : _ ∧ method.name = m.name ∧ _ ∧ _ := by simpa using hparts
  obtain rfl := Comparison.name_injective hname
  exact ⟨⟨_, rfl, htarget⟩, rfl, ⟨left, hleft, rfl⟩, hlist, rfl, rfl, ⟨right, hright, rfl⟩⟩

/-! ## Routes -/

/-- Whether steps lead from a start along the elements of a chain, which are counted from `index` on:
there is a step and a stop for each element, the step comes from the stop before, and the last stop
goes by the alias, the others by the alias with their number. -/
structure IsRoute (catalog : Catalog) (aliasName : String) (index : Nat) (start : Stop)
    (elements : List (List String)) (stops : List Stop) (steps : List JoinStep) : Prop where
  length_stops : stops.length = elements.length
  length_steps : steps.length = elements.length
  name_eq : ∀ (i : Nat) there, stops[i]? = some there →
    there.name = if i + 1 = elements.length then aliasName
      else aliasName ++ "#" ++ toString (index + i)
  connects : ∀ (i : Nat) element here there s, elements[i]? = some element →
    (start :: stops)[i]? = some here → stops[i]? = some there → steps[i]? = some s →
    Connects catalog element here there s

namespace IsRoute

variable {aliasName : String} {index : Nat} {start there : Stop} {element : List String}
  {elements : List (List String)} {stops : List Stop} {s : JoinStep} {steps : List JoinStep}

theorem nil : IsRoute catalog aliasName index start [] [] [] := by
  constructor <;> simp

/-- A route goes on from the stop of its first step. -/
theorem cons (hfirst : Connects catalog element start there s)
    (hname : there.name = stepAlias aliasName index elements.isEmpty)
    (hrest : IsRoute catalog aliasName (index + 1) there elements stops steps) :
    IsRoute catalog aliasName index start (element :: elements) (there :: stops)
      (s :: steps) where
  length_stops := congrArg (· + 1) hrest.length_stops
  length_steps := congrArg (· + 1) hrest.length_steps
  name_eq := by
    intro i stop hstop
    cases i with
    | zero =>
      obtain rfl : there = stop := by simpa using hstop
      rw [hname]
      cases elements <;> rfl
    | succ i =>
      have hcount : index + 1 + i = index + (i + 1) := by omega
      simp only [hrest.name_eq i stop (by simpa using hstop), List.length_cons,
        Nat.add_right_cancel_iff, hcount]
  connects := by
    intro i element' here stop s' helement hhere hstop hs
    cases i with
    | zero =>
      obtain rfl : element = element' := by simpa using helement
      obtain rfl : start = here := by simpa using hhere
      obtain rfl : there = stop := by simpa using hstop
      obtain rfl : s = s' := by simpa using hs
      exact hfirst
    | succ i =>
      exact hrest.connects i element' here stop s' (by simpa using helement) (by simpa using hhere)
        (by simpa using hstop) (by simpa using hs)

/-- Every step of a route connects a stop with the one before it. -/
theorem exists_connects (h : IsRoute catalog aliasName index start elements stops steps) {i : Nat}
    (hthere : stops[i]? = some there) (hs : steps[i]? = some s) :
    ∃ element here, elements[i]? = some element ∧ (start :: stops)[i]? = some here ∧
      Connects catalog element here there s := by
  obtain ⟨hi, -⟩ := List.getElem?_eq_some_iff.1 hthere
  obtain ⟨element, helement⟩ : ∃ element, elements[i]? = some element :=
    ⟨_, List.getElem?_eq_getElem (h.length_stops ▸ hi)⟩
  obtain ⟨here, hhere⟩ : ∃ here, (start :: stops)[i]? = some here :=
    ⟨_, List.getElem?_eq_getElem (Nat.lt_succ_of_lt hi)⟩
  exact ⟨element, here, helement, hhere, h.connects i element here there s helement hhere hthere hs⟩

end IsRoute

/-- A chain that is planned is a route, and comes to the table of its last stop. -/
theorem isRoute_of_chain {aliasName : String} {start : Stop} {index : Nat}
    {elements : List (List String)} {steps : List JoinStep} {last : Table}
    (h : chain catalog aliasName start.name start.table index elements = .ok (steps, last)) :
    ∃ stops, IsRoute catalog aliasName index start elements stops steps ∧
      (stops.getLast?.getD start).table = last := by
  induction elements generalizing start index steps with
  | nil =>
    obtain ⟨rfl, rfl⟩ := Prod.mk.inj (Except.ok.inj h)
    exact ⟨[], .nil, rfl⟩
  | cons element elements ih =>
    obtain ⟨s, joined, others, hstep, hothers, rfl⟩ := chain_cons_eq_ok h
    have hfirst := connects_of_step hstep
    rw [hfirst.aliasName] at hothers
    -- The rest of the chain starts at the stop that this step leads to.
    have hothers : chain catalog aliasName
        (Stop.mk (stepAlias aliasName index elements.isEmpty) joined).name joined (index + 1) elements
        = .ok (others, last) := hothers
    obtain ⟨stops, hrest, hlast⟩ := ih hothers
    refine ⟨_ :: stops, .cons hfirst rfl hrest, ?_⟩
    rw [← hlast, List.getLast?_cons, Option.getD_some]

/-! ## Plans -/

/-- The chain of an alias with its stops and steps, from the base table on. -/
structure Route (catalog : Catalog) (base : Table) where
  aliasName : String
  elements : List (List String)
  stops : List Stop
  steps : List JoinStep
  isRoute : IsRoute catalog aliasName 0 ⟨base.name, base⟩ elements stops steps
  stops_ne_nil : stops ≠ []

namespace Route

/-- The alias with its chain, as it is declared. -/
def declaration (r : Route catalog base) : String × List (List String) := (r.aliasName, r.elements)

/-- The alias with the table of the last stop. -/
def destination (r : Route catalog base) : String × Table :=
  (r.aliasName, (r.stops.getLast r.stops_ne_nil).table)

end Route

theorem exists_route_of_planOne {entry : String × List (List String)}
    {q : List JoinStep × (String × Table)} (h : planOne catalog base entry = .ok q) :
    ∃ r : Route catalog base, r.declaration = entry ∧ (r.steps, r.destination) = q := by
  obtain ⟨aliasName, elements⟩ := entry
  unfold planOne at h
  obtain ⟨_, -, h⟩ := Except.bind_eq_ok_iff.1 h
  split at h
  · cases h
  · next hsome =>
    obtain ⟨⟨steps, last⟩, hchain, h⟩ := Except.bind_eq_ok_iff.1 h
    obtain rfl := Except.ok.inj h
    have hchain : chain catalog aliasName (Stop.mk base.name base).name base 0 elements
        = .ok (steps, last) := hchain
    obtain ⟨stops, hroute, rfl⟩ := isRoute_of_chain hchain
    have hne : stops ≠ [] := by
      rintro rfl
      exact hsome (List.isEmpty_iff_length_eq_zero.2 hroute.length_stops.symm)
    refine ⟨⟨aliasName, elements, stops, steps, hroute, hne⟩, rfl, ?_⟩
    unfold Route.destination
    rw [List.getLast?_eq_some_getLast hne, Option.getD_some]

/-- Each alias has a route, in the order of the aliases. -/
theorem exists_routes_of_forall₂ {joins : JoinSpec} {qs : List (List JoinStep × (String × Table))}
    (h : List.Forall₂ (fun entry q => planOne catalog base entry = .ok q) joins qs) :
    ∃ routes : List (Route catalog base), joins = routes.map Route.declaration ∧
      qs = routes.map fun r => (r.steps, r.destination) := by
  induction h with
  | nil => exact ⟨[], rfl, rfl⟩
  | cons hone _ ih =>
    obtain ⟨r, rfl, rfl⟩ := exists_route_of_planOne hone
    obtain ⟨routes, rfl, rfl⟩ := ih
    exact ⟨r :: routes, rfl, rfl⟩

/-- **Join plans are well scoped.** The plan of some joins is made of one route for each alias, in
the order of the aliases: each element of a chain has one step, which compares, by a method that takes
no list, a column of the stop before it (the base table for the first step) with a column of the table
that it joins; and the aliases stand for the tables of their last stops. In a catalog that was built,
that table is the one of the name that the step gives. -/
theorem exists_routes_of_plan {joins : JoinSpec} {p : JoinPlan}
    (h : plan catalog base joins = .ok p) :
    ∃ routes : List (Route catalog base), joins = routes.map Route.declaration ∧
      p.steps = routes.flatMap Route.steps ∧ p.aliases = routes.map Route.destination ∧
      ∀ tables, Catalog.build tables = .ok catalog → ∀ r ∈ routes, ∀ (i : Nat) there s,
        r.stops[i]? = some there → r.steps[i]? = some s →
        catalog.table? s.table = some there.table := by
  obtain ⟨qs, hqs, rfl⟩ := plan_eq_ok_iff.1 h
  obtain ⟨routes, rfl, rfl⟩ := exists_routes_of_forall₂ (Except.mapM_eq_ok_iff.1 hqs)
  refine ⟨routes, rfl, List.flatMap_map _ _ _, List.map_map, ?_⟩
  intro tables hbuild r _ i there s hthere hs
  obtain ⟨element, here, -, -, hconnects⟩ := r.isRoute.exists_connects hthere hs
  obtain ⟨target, -, htarget⟩ := hconnects.element_eq
  rw [hconnects.table, (Catalog.mem_of_table? hbuild htarget).1]
  exact htarget

/-- Two steps of one alias, of which the first goes by the name of the base table, and one step of
another. -/
theorem exists_routes_of_plan_linked :
    let joins : JoinSpec :=
      [("S", [["next", "eq", "S#0", "next"], ["next", "lt", "Asset", "id"]]),
        ("T", [["next", "ne", "Shot", "asset"]])]
    ∃ base p, linked.table "S#0" = .ok base ∧ plan linked base joins = .ok p ∧
      p.steps.map (fun s => (s.left.source, s.aliasName))
        = [("S#0", "S#0"), ("S#0", "S"), ("S#0", "T")] ∧
      ∃ routes : List (Route linked base), joins = routes.map Route.declaration ∧
        p.steps = routes.flatMap Route.steps ∧ p.aliases = routes.map Route.destination ∧
        ∀ r ∈ routes, ∀ (i : Nat) there s, r.stops[i]? = some there → r.steps[i]? = some s →
          linked.table? s.table = some there.table := by
  intro joins
  obtain ⟨base, hbase⟩ : ∃ base, linked.table "S#0" = .ok base := ⟨_, rfl⟩
  obtain ⟨p, hplan⟩ : ∃ p, plan linked base joins = .ok p := by
    obtain rfl := Except.ok.inj hbase
    exact ⟨_, rfl⟩
  have hsteps : p.steps.map (fun s => (s.left.source, s.aliasName))
      = [("S#0", "S#0"), ("S#0", "S"), ("S#0", "T")] := by
    obtain rfl := Except.ok.inj hbase
    obtain rfl := Except.ok.inj hplan
    rfl
  obtain ⟨routes, hjoins, hall, haliases, hbuilt⟩ := exists_routes_of_plan hplan
  exact ⟨base, p, hbase, hplan, hsteps, routes, hjoins, hall, haliases, hbuilt linked.tables rfl⟩

end Tabula.Join
