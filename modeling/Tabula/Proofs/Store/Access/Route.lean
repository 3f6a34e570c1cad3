import Tabula.Proofs.Store.Access.Sources
import Tabula.Store.Access.Branching

/-!
# Routes that are kept

Whatever the estimates are, the routes of a clause use its comparisons only, and of every source a
route is kept that can be taken at any time (`areSound_addRoutes`).
-/

namespace Tabula.Store.Access

/-! ## Keeping routes -/

namespace Route

variable {new old r : Route} {routes routes' : List Route}

/-- Aligning a route with one that is kept changes estimates alone. -/
theorem alignWith_eq (r kept : Route) : ∃ cost rows, r.alignWith kept = { r with cost, rows } := by
  unfold alignWith
  split
  · exact ⟨r.cost, r.rows, rfl⟩
  · split
    · exact ⟨_, _, rfl⟩
    · split
      · exact ⟨_, _, rfl⟩
      · exact ⟨r.cost, r.rows, rfl⟩

/-- Aligning a route only changes its estimates. -/
theorem align_eq (r : Route) (routes : List Route) :
    ∃ cost rows, r.align routes = { r with cost, rows } := by
  unfold align
  split
  · have hfold : ∀ (kept : List Route) (r : Route),
        ∃ cost rows, kept.foldl alignWith r = { r with cost, rows } := by
      intro kept
      induction kept with
      | nil => exact fun r => ⟨r.cost, r.rows, rfl⟩
      | cons first kept ih =>
          intro r
          obtain ⟨cost, rows, hfirst⟩ := alignWith_eq r first
          obtain ⟨cost', rows', hkept⟩ := ih (r.alignWith first)
          refine ⟨cost', rows', ?_⟩
          rw [List.foldl_cons, hkept, hfirst]
    exact hfold routes r
  · exact ⟨r.cost, r.rows, rfl⟩

/-- A better route is one to the same source that needs no more sources before it. -/
theorem judge_better (h : judge new old = .better) :
    old.source = new.source ∧ new.needs.isWithin old.needs = true := by
  unfold judge at h
  split at h
  · cases h
  · next hsame =>
      have hsource : old.source = new.source := by
        by_contra hne
        exact hsame (by simp [hne])
      split at h
      · next hautomatic => exact ⟨hsource, by simp_all⟩
      · split at h
        · cases h
        · split at h
          · next hbetter => exact ⟨hsource, by simp_all⟩
          · cases h

/-- A route is needless if one to the same source needs no more and is no harder to set up. -/
theorem judge_needless (h : judge new old = .needless) :
    old.source = new.source ∧ old.needs.isWithin new.needs = true ∧ old.setup ≤ new.setup := by
  unfold judge at h
  split at h
  · cases h
  · next hsame =>
      have hsource : old.source = new.source := by
        by_contra hne
        exact hsame (by simp [hne])
      split at h
      · cases h
      · split at h
        · next hneedless => exact ⟨hsource, by simp_all⟩
        · split at h <;> cases h

/-- What is left when worse routes are dropped was there. -/
theorem mem_of_mem_dropWorse (h : r ∈ dropWorse new routes) : r ∈ routes := by
  induction routes with
  | nil => simp [dropWorse] at h
  | cons old routes ih =>
      unfold dropWorse at h
      split at h
      · rcases List.mem_cons.1 h with rfl | h
        · simp
        · simp [ih h]
      · exact h
      · simp [ih h]

/-- A route is left, or the new one is better. -/
theorem mem_dropWorse_or (new : Route) (h : old ∈ routes) :
    old ∈ dropWorse new routes ∨ judge new old = .better := by
  induction routes with
  | nil => simp at h
  | cons first routes ih =>
      unfold dropWorse
      split
      · rcases List.mem_cons.1 h with rfl | h
        · simp
        · rcases ih h with h | h
          · simp [h]
          · exact .inr h
      · exact .inl h
      · next hbetter =>
          rcases List.mem_cons.1 h with rfl | h
          · exact .inr hbetter
          · exact ih h

/-- Placing a route brings no other new one. -/
theorem mem_of_mem_place? (h : place? new routes = some routes') (hr : r ∈ routes') :
    r = new ∨ r ∈ routes := by
  induction routes generalizing routes' with
  | nil =>
      obtain rfl : [new] = routes' := by simpa [place?] using h
      simpa using hr
  | cons old routes ih =>
      unfold place? at h
      split at h
      · obtain ⟨rest, hrest, rfl⟩ := Option.map_eq_some_iff.1 h
        rcases List.mem_cons.1 hr with rfl | hr
        · simp
        · rcases ih hrest hr with h | h
          · exact .inl h
          · simp [h]
      · cases h
      · obtain rfl := Option.some.inj h
        rcases List.mem_cons.1 hr with rfl | hr
        · simp
        · simp [mem_of_mem_dropWorse hr]

/-- A route is still there when one is placed, or that one is better. -/
theorem mem_place?_or (h : place? new routes = some routes') (hold : old ∈ routes) :
    old ∈ routes' ∨ judge new old = .better := by
  induction routes generalizing routes' with
  | nil => simp at hold
  | cons first routes ih =>
      unfold place? at h
      split at h
      · obtain ⟨rest, hrest, rfl⟩ := Option.map_eq_some_iff.1 h
        rcases List.mem_cons.1 hold with rfl | hold
        · simp
        · rcases ih hrest hold with h | h
          · simp [h]
          · exact .inr h
      · cases h
      · next hbetter =>
          obtain rfl := Option.some.inj h
          rcases List.mem_cons.1 hold with rfl | hold
          · exact .inr hbetter
          · rcases mem_dropWorse_or new hold with h | h
            · simp [h]
            · exact .inr h

/-- A route that is placed is there. -/
theorem mem_place?_self (h : place? new routes = some routes') : new ∈ routes' := by
  induction routes generalizing routes' with
  | nil =>
      obtain rfl : [new] = routes' := by simpa [place?] using h
      simp
  | cons old routes ih =>
      unfold place? at h
      split at h
      · obtain ⟨rest, hrest, rfl⟩ := Option.map_eq_some_iff.1 h
        simp [ih hrest]
      · cases h
      · obtain rfl := Option.some.inj h
        simp

/-- A route that is not placed is needless beside one that is there. -/
theorem exists_needless (h : place? new routes = none) :
    ∃ old ∈ routes, judge new old = .needless := by
  induction routes with
  | nil => simp [place?] at h
  | cons old routes ih =>
      unfold place? at h
      split at h
      · obtain ⟨other, hother, hjudge⟩ := ih (Option.map_eq_none_iff.1 h)
        exact ⟨other, by simp [hother], hjudge⟩
      · next hneedless => exact ⟨old, by simp, hneedless⟩
      · cases h

/-- A route that is kept was there before, or is the new one with other estimates. -/
theorem mem_of_mem_keep (h : r ∈ keep routes new) :
    r ∈ routes ∨ ∃ cost rows, r = { new with cost, rows } := by
  obtain ⟨cost, rows, halign⟩ := align_eq new routes
  unfold keep at h
  rw [halign] at h
  cases hplace : place? { new with cost, rows } routes with
  | none => exact .inl (by simpa [hplace] using h)
  | some kept =>
      rw [hplace] at h
      rcases mem_of_mem_place? hplace h with h | h
      · exact .inr ⟨cost, rows, h⟩
      · exact .inl h

/-- Whether a route can be taken at any time. -/
structure IsOpen (r : Route) : Prop where
  needs : r.needs = .none
  means : r.means ≠ .automatic

/-- Whether one of some routes leads to a source at any time. -/
def HaveOpen (routes : List Route) (source : Nat) : Prop :=
  ∃ r ∈ routes, r.source = source ∧ r.IsOpen

/-- An open route of a source is kept, or replaced by one that is open too, unless an automatic one
of the source comes up. -/
theorem HaveOpen.keep {source : Nat} (h : HaveOpen routes source)
    (hnew : new.source = source → new.means ≠ .automatic) : HaveOpen (keep routes new) source := by
  obtain ⟨old, hold, hsource, hopen⟩ := h
  obtain ⟨cost, rows, halign⟩ := align_eq new routes
  unfold Route.keep
  rw [halign]
  cases hplace : place? { new with cost, rows } routes with
  | none => exact ⟨old, hold, hsource, hopen⟩
  | some kept =>
      rcases mem_place?_or hplace hold with hkept | hbetter
      · exact ⟨old, hkept, hsource, hopen⟩
      · obtain ⟨hsame, hneeds⟩ := judge_better hbetter
        rw [hopen.needs] at hneeds
        have hnewSource : new.source = source := hsame.symm.trans hsource
        exact ⟨_, mem_place?_self hplace, hnewSource, Sources.isWithin_none hneeds, hnew hnewSource⟩

/-- Once an open route without preparation has come up, the source has an open route. -/
theorem haveOpen_keep_self (hnew : new.IsOpen) (hsetup : new.setup = 0)
    (hautomatic : ∀ old ∈ routes, old.means = .automatic → 0 < old.setup) :
    HaveOpen (keep routes new) new.source := by
  obtain ⟨cost, rows, halign⟩ := align_eq new routes
  unfold Route.keep
  rw [halign]
  cases hplace : place? { new with cost, rows } routes with
  | none =>
      obtain ⟨old, hold, hneedless⟩ := exists_needless hplace
      obtain ⟨hsame, hneeds, hless⟩ := judge_needless hneedless
      have hneeds : old.needs.isWithin .none = true := by
        rw [← hnew.needs]
        exact hneeds
      refine ⟨old, hold, hsame, Sources.isWithin_none hneeds, ?_⟩
      intro hmeans
      have hpositive := hautomatic old hold hmeans
      have hless : old.setup ≤ new.setup := hless
      rw [hsetup] at hless
      exact absurd hpositive (Int.not_lt.2 hless)
  | some kept => exact ⟨_, mem_place?_self hplace, rfl, hnew.needs, hnew.means⟩

end Route

/-! ## Searches -/

/-- A route that uses comparisons of a clause only; an automatic one looks up no given value and
has to be prepared. -/
structure Route.IsSound (leaves : List Leaf) (r : Route) : Prop where
  terms : ∀ t ∈ r.terms, t ∈ leaves
  automatic : r.means = .automatic →
    r.looksUpOne = false ∧ r.looksUpSeveral = false ∧ 0 < r.setup

/-- The terms that a search can use are terms of the clause. -/
theorem mem_leaves_of_mem_seekers {c : Clause} {accepts : Narrowing → Bool}
    {index : Option Affinity} {column : Place} {t : Leaf}
    (h : t ∈ c.seekers accepts index column) : t ∈ c.leaves := by
  obtain ⟨other, -, h⟩ := List.mem_flatMap.1 h
  exact (List.mem_filter.1 h).1

variable {p : Problem} {main c : Clause} {g : Guide} {r : Route}

/-- A search that is extended leads to the same source. -/
theorem extend_source (p : Problem) (c : Clause) (g : Guide) (r : Route) (searches : Estimate)
    (part : Part) (t : Leaf) (probe : Probe) :
    (extend p c g r searches part t probe).route.source = r.source ∧
      (extend p c g r searches part t probe).onward.source = r.source := by
  unfold extend Route.reduced
  dsimp only
  cases probe.narrowing <;> exact ⟨rfl, rfl⟩

/-- A search that is extended is made by the same means. -/
theorem extend_means (p : Problem) (c : Clause) (g : Guide) (r : Route) (searches : Estimate)
    (part : Part) (t : Leaf) (probe : Probe) :
    (extend p c g r searches part t probe).route.means = r.means ∧
      (extend p c g r searches part t probe).onward.means = r.means := by
  unfold extend Route.reduced
  dsimp only
  cases probe.narrowing <;> exact ⟨rfl, rfl⟩

/-- A search that is extended uses one more term. -/
theorem extend_terms (p : Problem) (c : Clause) (g : Guide) (r : Route) (searches : Estimate)
    (part : Part) (t : Leaf) (probe : Probe) :
    (extend p c g r searches part t probe).route.terms = r.terms ++ [t] ∧
      (extend p c g r searches part t probe).onward.terms = r.terms ++ [t] := by
  unfold extend Route.reduced
  dsimp only
  cases probe.narrowing <;> exact ⟨rfl, rfl⟩

/-- What holds of a route along a guide of a source whose comparisons are from a clause. -/
structure Route.Guided (leaves : List Leaf) (source : Nat) (r : Route) : Prop where
  source : r.source = source
  means : ∃ index?, r.means = .guide index?
  terms : ∀ t ∈ r.terms, t ∈ leaves

/-- A guided route is sound. -/
theorem Route.Guided.isSound {leaves : List Leaf} {source : Nat} (h : r.Guided leaves source) :
    r.IsSound leaves := by
  refine ⟨h.terms, ?_⟩
  intro hmeans
  obtain ⟨index?, hguide⟩ := h.means
  rw [hguide] at hmeans
  cases hmeans

/-- One more comparison of the clause keeps a route along its guide. -/
theorem guided_extend {source : Nat} (h : r.Guided c.leaves source) {searches : Estimate}
    {part : Part} {t : Leaf} {probe : Probe} (ht : t ∈ c.leaves) :
    (extend p c g r searches part t probe).route.Guided c.leaves source ∧
      (extend p c g r searches part t probe).onward.Guided c.leaves source := by
  obtain ⟨hsource, hsource'⟩ := extend_source p c g r searches part t probe
  obtain ⟨hmeans, hmeans'⟩ := extend_means p c g r searches part t probe
  obtain ⟨hterms, hterms'⟩ := extend_terms p c g r searches part t probe
  have hall : ∀ u ∈ r.terms ++ [t], u ∈ c.leaves := by
    intro u hu
    rcases List.mem_append.1 hu with hu | hu
    · exact h.terms u hu
    · obtain rfl := List.mem_singleton.1 hu
      exact ht
  constructor
  · exact ⟨hsource.trans h.source, by rw [hmeans]; exact h.means, by rw [hterms]; exact hall⟩
  · exact ⟨hsource'.trans h.source, by rw [hmeans']; exact h.means, by rw [hterms']; exact hall⟩

/-- A guided route is so with one more step. -/
theorem guided_stepsAt {source : Nat} (h : r.Guided c.leaves source) {searches : Estimate}
    {part : Part} {accepts : Narrowing → Bool} {n : Narrowing} {step : Step}
    (hstep : (n, step) ∈ stepsAt p c g r searches part accepts) :
    step.route.Guided c.leaves source ∧ step.onward.Guided c.leaves source := by
  unfold stepsAt at hstep
  split at hstep
  · simp at hstep
  · obtain ⟨t, ht, hstep⟩ := List.mem_filterMap.1 hstep
    obtain ⟨probe, -, hstep⟩ := Option.bind_eq_some_iff.1 hstep
    split at hstep
    · cases hstep
    · obtain ⟨rfl, rfl⟩ := Prod.mk.inj (Option.some.inj hstep)
      exact guided_extend h (mem_leaves_of_mem_seekers ht)

/-- All searches along a guide are guided routes. -/
theorem guided_searchesFrom {source : Nat} (parts : List Part) {r : Route}
    (h : r.Guided c.leaves source) {searches : Estimate} {found : Route}
    (hfound : found ∈ searchesFrom p c g r searches parts) : found.Guided c.leaves source := by
  induction parts generalizing r searches with
  | nil => simp [searchesFrom] at hfound
  | cons part parts ih =>
      unfold searchesFrom at hfound
      obtain ⟨⟨n, step⟩, hstep, hfound⟩ := List.mem_flatMap.1 hfound
      obtain ⟨hroute, honward⟩ := guided_stepsAt h hstep
      dsimp only at hfound
      split at hfound
      · rcases List.mem_cons.1 hfound with rfl | hfound
        · exact hroute
        · exact ih honward hfound
      · split at hfound
        · rcases List.mem_cons.1 hfound with rfl | hfound
          · exact hroute
          · obtain ⟨⟨m, upper⟩, hupper, rfl⟩ := List.mem_map.1 hfound
            exact (guided_stepsAt honward hupper).1
        · obtain rfl := List.mem_singleton.1 hfound
          exact hroute

/-- The route through all rows is guided, needs nothing and takes no setting up. -/
theorem guided_fullRoute (p : Problem) (main c : Clause) (g : Guide) (source rank : Nat) :
    (fullRoute p main source g rank).1.Guided c.leaves source ∧
      (fullRoute p main source g rank).1.needs = .none ∧
      (fullRoute p main source g rank).1.setup = 0 := by
  unfold fullRoute
  dsimp only
  split
  · exact ⟨⟨rfl, ⟨_, rfl⟩, by simp⟩, rfl, rfl⟩
  · split <;> exact ⟨⟨rfl, ⟨_, rfl⟩, by simp⟩, rfl, rfl⟩

/-- The routes along guides use the comparisons of the clause. -/
theorem guided_guidedRoutes {source : Nat} (h : r ∈ guidedRoutes p main c source) :
    r.Guided c.leaves source := by
  obtain ⟨⟨g, i⟩, -, h⟩ := List.mem_flatMap.1 h
  obtain ⟨hfull, -, -⟩ := guided_fullRoute p main c g source (i + 1)
  dsimp only at h
  rcases List.mem_append.1 h with h | h
  · split at h
    · obtain rfl := List.mem_singleton.1 h
      exact ⟨hfull.source, hfull.means, hfull.terms⟩
    · simp at h
  · exact guided_searchesFrom _ hfull h

/-- Among the routes along guides is one that goes through all rows. -/
theorem exists_open_guidedRoutes (p : Problem) (main c : Clause) (source : Nat) :
    ∃ r ∈ guidedRoutes p main c source, r.source = source ∧ r.IsOpen ∧ r.setup = 0 := by
  let full := (fullRoute p main source .rowIds 1).1
  obtain ⟨hfull, hneeds, hsetup⟩ :=
    guided_fullRoute p main c .rowIds source 1
  refine ⟨full.reduced c, ?_, hfull.source, ⟨hneeds, ?_⟩, hsetup⟩
  · unfold guidedRoutes Guide.all
    rw [List.zipIdx_cons, List.flatMap_cons]
    exact List.mem_append_left _ (List.mem_append_left _ (List.mem_singleton.2 rfl))
  · obtain ⟨index?, hmeans⟩ := hfull.means
    intro hautomatic
    have hautomatic : full.means = .automatic := hautomatic
    rw [hmeans] at hautomatic
    cases hautomatic

/-- A route along an index that is made for the occasion is sound. -/
theorem isSound_automaticRoutes {source rank : Nat} (h : r ∈ automaticRoutes p c source rank) :
    r.source = source ∧ r.means = .automatic ∧ r.IsSound c.leaves := by
  obtain ⟨t, ht, h⟩ := List.mem_filterMap.1 h
  obtain ⟨probe, -, h⟩ := Option.bind_eq_some_iff.1 h
  cases hslot : probe.column.slot with
  | rowId => simp [hslot] at h
  | field position =>
      rw [hslot] at h
      dsimp only [bind, Option.bind] at h
      split at h
      · obtain rfl := Option.some.inj h
        refine ⟨rfl, rfl, ?_, ?_⟩
        · intro u hu
          obtain rfl := List.mem_singleton.1 hu
          exact List.mem_append_left _ ht
        · intro _
          refine ⟨rfl, rfl, ?_⟩
          show 0 < searchCost + tableRows + 28
          decide
      · cases h

mutual

/-- The routes of branches use no terms but those branches. -/
theorem branches_branchRoutes {source : Nat} {routes : List Route} :
    (terms : List Term) → ∀ r ∈ branchRoutes p main c source routes terms,
      r.source = source ∧ r.terms = [] ∧ ∃ position, r.means = .branches position
  | [], r, h => by simp [branchRoutes] at h
  | t :: terms, r, h => by
    rw [branchRoutes] at h
    rcases List.mem_append.1 h with h | h
    · exact branches_termRoutes t r h
    · exact branches_branchRoutes terms r h

/-- So do the routes of a term. -/
theorem branches_termRoutes {source : Nat} {routes : List Route} :
    (t : Term) → ∀ r ∈ termRoutes p main c source routes t,
      r.source = source ∧ r.terms = [] ∧ ∃ position, r.means = .branches position
  | .leaf _, r, h => by simp [termRoutes] at h
  | .either position _ _ _, r, h => by
    rw [termRoutes] at h
    split at h
    · obtain ⟨offer, -, rfl⟩ := List.mem_map.1 h
      exact ⟨rfl, rfl, position, rfl⟩
    · simp at h

end

/-- A route branch by branch is sound. -/
theorem isSound_of_branches {leaves : List Leaf} (hterms : r.terms = [])
    (hmeans : ∃ position, r.means = .branches position) : r.IsSound leaves := by
  constructor
  · simp [hterms]
  · intro hautomatic
    obtain ⟨position, hmeans⟩ := hmeans
    rw [hmeans] at hautomatic
    cases hautomatic

/-! ## Routes of all sources -/

/-- Routes of some sources that are sound, of which those in `opened` have an open one. -/
structure Route.AreSound (leaves : List Leaf) (sources opened : List Nat) (routes : List Route) :
    Prop where
  isSound : ∀ r ∈ routes, r.IsSound leaves
  mem_sources : ∀ r ∈ routes, r.source ∈ sources
  haveOpen : ∀ source ∈ opened, HaveOpen routes source

namespace Route.AreSound

variable {leaves : List Leaf} {sources opened : List Nat} {routes : List Route}

theorem nil (leaves : List Leaf) (sources : List Nat) : AreSound leaves sources [] [] :=
  ⟨by simp, by simp, by simp⟩

/-- Another sound route is kept or not; an automatic one only of a source that has no open one
yet. -/
theorem keep {new : Route} (h : AreSound leaves sources opened routes) (hnew : new.IsSound leaves)
    (hsource : new.source ∈ sources) (hopened : new.source ∈ opened → new.means ≠ .automatic) :
    AreSound leaves sources opened (Route.keep routes new) := by
  refine ⟨?_, ?_, ?_⟩
  · intro r hr
    rcases mem_of_mem_keep hr with hr | ⟨cost, rows, rfl⟩
    · exact h.isSound r hr
    · exact ⟨hnew.terms, hnew.automatic⟩
  · intro r hr
    rcases mem_of_mem_keep hr with hr | ⟨cost, rows, rfl⟩
    · exact h.mem_sources r hr
    · exact hsource
  · intro source hmem
    apply (h.haveOpen source hmem).keep
    rintro rfl
    exact hopened hmem

/-- Routes are still sound when sound ones are kept one after the other. -/
theorem foldl_keep {news : List Route} (h : AreSound leaves sources opened routes)
    (hnews : ∀ r ∈ news, r.IsSound leaves ∧ r.source ∈ sources ∧
      (r.source ∈ opened → r.means ≠ .automatic)) :
    AreSound leaves sources opened (news.foldl Route.keep routes) := by
  induction news generalizing routes with
  | nil => exact h
  | cons new news ih =>
      obtain ⟨hsound, hsource, hopened⟩ := hnews new (by simp)
      exact ih (h.keep hsound hsource hopened) fun r hr => hnews r (by simp [hr])

/-- Once a route that goes through all rows has come up, its source counts as opened. -/
theorem foldl_keep_opened {news : List Route} {source : Nat}
    (h : AreSound leaves sources opened routes)
    (hnews : ∀ r ∈ news, r.IsSound leaves ∧ r.source ∈ sources ∧
      (r.source ∈ source :: opened → r.means ≠ .automatic))
    (hopen : ∃ r ∈ news, r.source = source ∧ r.IsOpen ∧ r.setup = 0) :
    AreSound leaves sources (source :: opened) (news.foldl Route.keep routes) := by
  induction news generalizing routes with
  | nil => simp at hopen
  | cons new news ih =>
      obtain ⟨hsound, hsource, hopened⟩ := hnews new (by simp)
      have hkept := h.keep hsound hsource fun hmem => hopened (by simp [hmem])
      have hrest := fun r hr => hnews r (List.mem_cons_of_mem new hr)
      obtain ⟨r, hr, rfl, hr', hsetup⟩ := hopen
      rcases List.mem_cons.1 hr with rfl | hr
      · have hself := haveOpen_keep_self hr' hsetup fun old hold hmeans =>
          ((h.isSound old hold).automatic hmeans).2.2
        have hboth : AreSound leaves sources (r.source :: opened) (Route.keep routes r) := by
          refine ⟨hkept.isSound, hkept.mem_sources, ?_⟩
          intro source hmem
          rcases List.mem_cons.1 hmem with rfl | hmem
          · exact hself
          · exact hkept.haveOpen source hmem
        exact hboth.foldl_keep hrest
      · exact ih hkept hrest ⟨r, hr, rfl, hr', hsetup⟩

/-- Adding the routes of one more source keeps routes sound and opens the source. -/
theorem addRoutes {source : Nat} (p : Problem) (rank : Nat) (allowsAutomatic : Bool)
    (h : AreSound c.leaves sources opened routes) (hsource : source ∈ sources)
    (hnew : source ∉ opened) :
    AreSound c.leaves sources (source :: opened)
      (addRoutes p c allowsAutomatic routes rank source).1 := by
  unfold Access.addRoutes
  dsimp only
  have hautomatic : AreSound c.leaves sources opened
      ((if allowsAutomatic then automaticRoutes p c source rank else []).foldl Route.keep routes) := by
    apply h.foldl_keep
    intro r hr
    split at hr
    · obtain ⟨rfl, -, hsound⟩ := isSound_automaticRoutes hr
      exact ⟨hsound, hsource, fun hmem => absurd hmem hnew⟩
    · simp at hr
  have hguided : AreSound c.leaves sources (source :: opened)
      (((if allowsAutomatic then automaticRoutes p c source rank else [])
        ++ guidedRoutes p c c source).foldl Route.keep routes) := by
    rw [List.foldl_append]
    apply hautomatic.foldl_keep_opened
    · intro r hr
      have hr := guided_guidedRoutes hr
      refine ⟨hr.isSound, by rw [hr.source]; exact hsource, ?_⟩
      intro _ hmeans
      obtain ⟨index?, hguide⟩ := hr.means
      rw [hguide] at hmeans
      cases hmeans
    · exact exists_open_guidedRoutes p c c source
  apply hguided.foldl_keep
  intro r hr
  obtain ⟨rfl, hterms, hmeans⟩ := branches_branchRoutes _ r hr
  refine ⟨isSound_of_branches hterms hmeans, hsource, ?_⟩
  intro _ hautomatic
  obtain ⟨position, hmeans⟩ := hmeans
  rw [hmeans] at hautomatic
  cases hautomatic

/-- The routes of all sources, added one source after the other, are sound and each source has an
open one. -/
theorem foldl_addRoutes (p : Problem) (news : List Nat) (rank : Nat) (hnodup : news.Nodup)
    (hnews : ∀ source ∈ news, source ∈ sources ∧ source ∉ opened)
    (h : AreSound c.leaves sources opened routes) :
    AreSound c.leaves sources (news.reverse ++ opened)
      (news.foldl (fun (routes, rank) source => Access.addRoutes p c true routes rank source)
        (routes, rank)).1 := by
  induction news generalizing routes opened rank with
  | nil => exact h
  | cons source news ih =>
      obtain ⟨hfirst, hnodup⟩ := List.nodup_cons.1 hnodup
      obtain ⟨hsource, hnew⟩ := hnews source (by simp)
      have hadded := h.addRoutes p rank true hsource hnew
      have hrest := ih (Access.addRoutes p c true routes rank source).2 hnodup
        (fun other hother => by
          refine ⟨(hnews other (by simp [hother])).1, ?_⟩
          intro hmem
          rcases List.mem_cons.1 hmem with rfl | hmem
          · exact hfirst hother
          · exact (hnews other (by simp [hother])).2 hmem) hadded
      simpa using hrest

end Route.AreSound

end Tabula.Store.Access
