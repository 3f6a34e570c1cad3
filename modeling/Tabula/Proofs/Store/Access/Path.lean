import Mathlib.Data.List.Perm.Subperm
import Mathlib.Data.List.TakeWhile
import Tabula.Proofs.Store.Access.Route
import Tabula.Store.Access.Path

/-!
# Paths to all sources

Only few paths are kept at every step, but one that is kept can always be carried on: the path that
is chosen in the end comes to every source exactly once (`choosePath_sources_perm`).
-/

namespace Tabula.Store.Access

variable {p : Problem} {c : Clause} {most count : Nat} {sorting : Option Estimate}
  {routes : List Route} {path new : Path} {paths : List Path}

/-! ## Sound paths -/

namespace Path

/-- The sources that a path comes to, in its order. -/
def sources (path : Path) : List Nat := path.routes.map Route.source

/-- A path that takes some of the routes, no two of one source, each after the sources that it
needs. -/
structure IsSound (routes : List Route) (path : Path) : Prop where
  mem_routes : ∀ r ∈ path.routes, r ∈ routes
  nodup : path.sources.Nodup
  placed : ∀ i, path.placed.has i = true ↔ i ∈ path.sources
  needs : ∀ before r after, path.routes = before ++ r :: after →
    ∀ i, r.needs.has i = true → i ∈ before.map Route.source

/-- A path goes on by a route to a new source whose needs it has placed, if that is worth its
setting up. -/
theorem mem_onward {r : Route} : r ∈ path.onward routes ↔
    r ∈ routes ∧ r.needs.isWithin path.placed = true ∧ path.placed.has r.source = false ∧
      (r.means = .automatic → ¬ path.rows < 3) := by
  unfold onward
  rw [List.mem_filter, Bool.and_eq_true, Bool.and_eq_true, Bool.not_eq_true', Bool.not_eq_true',
    Bool.and_eq_false_imp, and_assoc]
  simp

/-- A path that is extended has one more route. -/
@[simp] theorem routes_extend (r : Route) :
    (path.extend p c sorting r).routes = path.routes ++ [r] := by
  unfold extend
  rfl

/-- So it has placed one more source. -/
@[simp] theorem placed_extend (r : Route) :
    (path.extend p c sorting r).placed = path.placed.union (.one r.source) := by
  unfold extend
  rfl

/-- A sound path has placed exactly its sources. -/
theorem IsSound.placed_eq_false_iff (h : path.IsSound routes) {i : Nat} :
    path.placed.has i = false ↔ i ∉ path.sources := by
  rw [Bool.eq_false_iff, ne_eq, h.placed]

/-- A sound path is so with one more route. -/
theorem IsSound.extend {r : Route} (h : path.IsSound routes) (hr : r ∈ path.onward routes) :
    (path.extend p c sorting r).IsSound routes := by
  obtain ⟨hmem, hneeds, hplaced, -⟩ := mem_onward.1 hr
  have hnew : r.source ∉ path.sources := h.placed_eq_false_iff.1 hplaced
  have hsources : (path.extend p c sorting r).sources = path.sources ++ [r.source] := by
    simp [sources]
  refine ⟨?_, ?_, ?_, ?_⟩
  · intro other hother
    rw [routes_extend, List.mem_append, List.mem_singleton] at hother
    rcases hother with hother | rfl
    · exact h.mem_routes other hother
    · exact hmem
  · rw [hsources, List.nodup_append]
    refine ⟨h.nodup, by simp, ?_⟩
    rintro i hi j hj rfl
    rw [List.mem_singleton.1 hj] at hi
    exact hnew hi
  · intro i
    rw [placed_extend, Sources.has_union, Bool.or_eq_true, h.placed, Sources.has_one,
      decide_eq_true_iff, hsources, List.mem_append, List.mem_singleton, eq_comm (a := r.source)]
  · intro before other after hsplit i hi
    rw [routes_extend] at hsplit
    -- The route is the new one or one of those before it.
    rcases List.eq_nil_or_concat after with rfl | ⟨rest, last, rfl⟩
    · obtain ⟨rfl, hlast⟩ := List.append_inj' hsplit rfl
      obtain rfl : r = other := by simpa using hlast
      exact (h.placed i).1 (Sources.isWithin_iff.1 hneeds i hi)
    · have hsplit : path.routes ++ [r] = (before ++ other :: rest) ++ [last] := by
        simpa using hsplit
      obtain ⟨hpath, -⟩ := List.append_inj' hsplit rfl
      exact h.needs before other rest hpath i hi

end Path

/-! ## Keeping paths -/

/-- A path that is kept was there or is new. -/
theorem mem_of_mem_keepPath (h : path ∈ keepPath most paths new) : path ∈ paths ∨ path = new := by
  unfold keepPath at h
  split at h
  · split at h
    · exact .inl h
    · exact List.mem_or_eq_of_mem_set h
  · split at h
    · simpa using h
    · dsimp only at h
      split at h
      · exact .inl h
      · exact List.mem_or_eq_of_mem_set h

/-- Some path is kept. -/
theorem keepPath_ne_nil (hmost : 0 < most) : keepPath most paths new ≠ [] := by
  unfold keepPath
  split
  · next i hi =>
      have hlength := List.findIdx?_eq_some_iff_findIdx_eq.1 hi
      have hne : paths ≠ [] := List.ne_nil_of_length_pos (by omega)
      split
      · exact hne
      · simpa using hne
  · split
    · simp
    · next hfull =>
        have hne : paths ≠ [] := List.ne_nil_of_length_pos (by omega)
        dsimp only
        split
        · exact hne
        · simpa using hne

/-- What is kept of several paths was there or is among them. -/
theorem mem_of_mem_foldl_keepPath {news : List Path}
    (h : path ∈ news.foldl (keepPath most) paths) : path ∈ paths ∨ path ∈ news := by
  induction news generalizing paths with
  | nil => exact .inl h
  | cons new news ih =>
      rcases ih h with h | h
      · rcases mem_of_mem_keepPath h with h | rfl
        · exact .inl h
        · simp
      · simp [h]

/-- Of some paths, one is kept. -/
theorem foldl_keepPath_ne_nil {news : List Path} (hmost : 0 < most)
    (h : paths ≠ [] ∨ news ≠ []) : news.foldl (keepPath most) paths ≠ [] := by
  induction news generalizing paths with
  | nil => simpa using h
  | cons new news ih => exact ih (.inl (keepPath_ne_nil hmost))

/-- At least one path is kept at every step. -/
theorem keptPaths_pos (n : Nat) : 0 < keptPaths n := by
  unfold keptPaths
  split
  · decide
  · split <;> decide

/-! ## Paths of every length -/

/-- Whether a path that does not come to all sources yet can always be carried on. -/
def CanGoOn (count : Nat) (routes : List Route) : Prop :=
  ∀ path : Path, path.IsSound routes → path.routes.length < count → path.onward routes ≠ []

/-- The paths after so many steps are sound and that long. -/
theorem isSound_of_mem_pathsAfter {steps : Nat}
    (h : path ∈ pathsAfter p c most sorting routes steps) :
    path.IsSound routes ∧ path.routes.length = steps := by
  induction steps generalizing path with
  | zero =>
      obtain rfl := List.mem_singleton.1 h
      refine ⟨⟨by simp, List.nodup_nil, ?_, ?_⟩, rfl⟩
      · intro i
        rw [Sources.has_none]
        simp [Path.sources]
      · intro before r after hsplit
        simp at hsplit
  | succ steps ih =>
      rcases mem_of_mem_foldl_keepPath h with h | h
      · simp at h
      · obtain ⟨before, hbefore, h⟩ := List.mem_flatMap.1 h
        obtain ⟨r, hr, rfl⟩ := List.mem_map.1 h
        obtain ⟨hsound, hlength⟩ := ih hbefore
        exact ⟨hsound.extend hr, by simp [hlength]⟩

/-- Some path is there after every step, if routes can always go on. -/
theorem pathsAfter_ne_nil (hmost : 0 < most) (hroutes : CanGoOn count routes) {steps : Nat}
    (hsteps : steps ≤ count) : pathsAfter p c most sorting routes steps ≠ [] := by
  induction steps with
  | zero => simp [pathsAfter]
  | succ steps ih =>
      apply foldl_keepPath_ne_nil hmost
      obtain ⟨path, hpath⟩ := List.exists_mem_of_ne_nil _ (ih (by omega))
      obtain ⟨hsound, hlength⟩ := isSound_of_mem_pathsAfter hpath
      obtain ⟨r, hr⟩ := List.exists_mem_of_ne_nil _ (hroutes path hsound (by omega))
      exact .inr (List.ne_nil_of_mem
        (List.mem_flatMap.2 ⟨path, hpath, List.mem_map.2 ⟨r, hr, rfl⟩⟩))

/-- The cheapest of some paths is one of them. -/
theorem cheapest_mem (h : paths ≠ []) : cheapest paths ∈ paths := by
  have hfold : ∀ (others : List Path) (best : Path),
      others.foldl (fun best path => if path.cost < best.cost then path else best) best
        ∈ best :: others := by
    intro others
    induction others with
    | nil => simp
    | cons other others ih =>
        intro best
        rw [List.foldl_cons]
        split
        · have h := ih other
          simp only [List.mem_cons] at h ⊢
          exact .inr h
        · have h := ih best
          simp only [List.mem_cons] at h ⊢
          rcases h with h | h
          · exact .inl h
          · exact .inr (.inr h)
  cases paths with
  | nil => exact absurd rfl h
  | cons first others => exact hfold others first

/-- The best path is sound and takes so many routes. -/
theorem isSound_bestPath (p : Problem) (c : Clause) (sorting : Option Estimate)
    (hroutes : CanGoOn count routes) :
    (bestPath p c count sorting routes).IsSound routes ∧
      (bestPath p c count sorting routes).routes.length = count :=
  isSound_of_mem_pathsAfter
    (cheapest_mem (pathsAfter_ne_nil (keptPaths_pos count) hroutes (le_refl count)))

/-! ## Carrying on -/

/-- A path that is not long enough misses a source. -/
theorem exists_missing (h : path.routes.length < count) : ∃ i < count, i ∉ path.sources := by
  by_contra hall
  have hsubset : List.range count ⊆ path.sources := by
    intro i hi
    by_contra hmiss
    exact hall ⟨i, List.mem_range.1 hi, hmiss⟩
  have hlength := (List.nodup_range.subperm hsubset).length_le
  rw [List.length_range, Path.sources, List.length_map] at hlength
  omega

/-- A long enough path comes to every source exactly once. -/
theorem sources_perm (h : path.IsSound routes) (hlength : path.routes.length = count)
    (hroutes : ∀ r ∈ routes, r.source < count) : path.sources.Perm (List.range count) := by
  have hsubset : path.sources ⊆ List.range count := by
    intro i hi
    obtain ⟨r, hr, rfl⟩ := List.mem_map.1 hi
    exact List.mem_range.2 (hroutes r (h.mem_routes r hr))
  apply (h.nodup.subperm hsubset).perm_of_length_le
  rw [List.length_range, Path.sources, List.length_map, hlength]

variable {leaves : List Leaf}

/-- An open route can be taken by any path that has not come to its source. -/
theorem mem_onward_of_isOpen {kept : List Route} {r : Route} (h : path.IsSound routes)
    (hr : r ∈ kept) (hopen : r.IsOpen) (hmiss : r.source ∉ path.sources) :
    r ∈ path.onward kept := by
  refine Path.mem_onward.2 ⟨hr, ?_, h.placed_eq_false_iff.2 hmiss,
    fun hmeans => absurd hmeans hopen.means⟩
  rw [hopen.needs]
  exact Sources.none_isWithin _

/-- Sound routes can always go on. -/
theorem canGoOn_of_areSound
    (h : Route.AreSound leaves (List.range count) (List.range count).reverse routes) :
    CanGoOn count routes := by
  intro path hpath hlength
  obtain ⟨i, hi, hmiss⟩ := exists_missing hlength
  obtain ⟨r, hr, rfl, hopen⟩ := h.haveOpen i (by simpa using hi)
  exact List.ne_nil_of_mem (mem_onward_of_isOpen hpath hr hopen hmiss)

/-- The first routes of a path that look rows up. -/
def lookups (first : Path) : List Route :=
  first.routes.takeWhile fun r => r.looksUpOne || r.looksUpSeveral

/-- Of the sources that are looked up first, only searches are left. -/
theorem mem_withoutScans {first : Path} {r : Route} : r ∈ withoutScans routes first ↔
    r ∈ routes ∧ (r.isSearch = true ∨ r.source ∉ (lookups first).map Route.source) := by
  unfold withoutScans lookups
  simp

/-- If a path looks a row up in some source that is not among others, it has a first such route. -/
theorem exists_first_lookup {first : Path} {taken : List Nat} {i : Nat}
    (hi : i ∈ (lookups first).map Route.source) (hmiss : i ∉ taken) :
    ∃ (before : List Route) (r : Route) (after : List Route),
      first.routes = before ++ r :: after ∧ (r.looksUpOne || r.looksUpSeveral) = true ∧
        r.source ∉ taken ∧ ∀ earlier ∈ before, earlier.source ∈ taken := by
  obtain ⟨r₀, hr₀, rfl⟩ := List.mem_map.1 hi
  have hexists : ((lookups first).find? fun r => r.source ∉ taken).isSome = true := by
    rw [List.find?_isSome]
    exact ⟨r₀, hr₀, by simpa using hmiss⟩
  obtain ⟨r, hr⟩ := Option.isSome_iff_exists.1 hexists
  obtain ⟨hrmiss, before, after, hsplit, hbefore⟩ := List.find?_eq_some_iff_append.1 hr
  obtain ⟨rest, hrest⟩ := List.takeWhile_prefix (l := first.routes)
    (fun r => r.looksUpOne || r.looksUpSeveral)
  refine ⟨before, r, after ++ rest, ?_, ?_, by simpa using hrmiss, ?_⟩
  · rw [← hrest]
    show lookups first ++ rest = _
    rw [hsplit]
    simp
  · have hmem : r ∈ lookups first := by simp [hsplit]
    unfold lookups at hmem
    simpa using List.mem_takeWhile_imp hmem
  · intro earlier hearlier
    simpa using hbefore earlier hearlier

/-- Without the scans of sources in which a first path looks rows up, paths can still be carried
on: by an open route of another source, or as the first path does. -/
theorem canGoOn_withoutScans
    (h : Route.AreSound leaves (List.range count) (List.range count).reverse routes) {first : Path}
    (hfirst : first.IsSound routes) : CanGoOn count (withoutScans routes first) := by
  intro path hpath hlength
  by_cases hother : ∃ i < count, i ∉ path.sources ∧ i ∉ (lookups first).map Route.source
  · obtain ⟨i, hi, hmiss, hlookup⟩ := hother
    obtain ⟨r, hr, rfl, hopen⟩ := h.haveOpen i (by simpa using hi)
    have hkept : r ∈ withoutScans routes first := mem_withoutScans.2 ⟨hr, .inr hlookup⟩
    exact List.ne_nil_of_mem (mem_onward_of_isOpen hpath hkept hopen hmiss)
  · -- All that is missing is looked up on the first path; its first such route can be taken.
    obtain ⟨i, hi, hmiss⟩ := exists_missing hlength
    have hlookup : i ∈ (lookups first).map Route.source := by
      by_contra hlookup
      exact hother ⟨i, hi, hmiss, hlookup⟩
    obtain ⟨before, r, after, hroutes, hlooks, hrmiss, hbefore⟩ := exists_first_lookup hlookup hmiss
    have hmem : r ∈ routes := hfirst.mem_routes r (by simp [hroutes])
    apply List.ne_nil_of_mem (a := r)
    refine Path.mem_onward.2 ⟨mem_withoutScans.2 ⟨hmem, .inl ?_⟩, ?_,
      hpath.placed_eq_false_iff.2 hrmiss, ?_⟩
    · unfold Route.isSearch
      rw [hlooks]
      simp
    · rw [Sources.isWithin_iff]
      intro j hj
      obtain ⟨earlier, hearlier, rfl⟩ := List.mem_map.1 (hfirst.needs before r after hroutes j hj)
      exact (hpath.placed _).2 (hbefore earlier hearlier)
    · intro hmeans
      obtain ⟨hone, hseveral, -⟩ := (h.isSound r hmem).automatic hmeans
      rw [hone, hseveral] at hlooks
      cases hlooks

/-! ## The path that is chosen -/

/-- Ordering within a path leaves its routes. -/
@[simp] theorem routes_orderWithin : (orderWithin p c path).routes = path.routes := by
  unfold orderWithin
  split
  · rfl
  · rfl
  · split
    · rfl
    · split
      · split <;> rfl
      · rfl

/-- The path that is chosen takes sound routes and comes to every source exactly once. -/
theorem choosePath_sources_perm
    (h : Route.AreSound leaves (List.range count) (List.range count).reverse routes) :
    (∀ r ∈ (choosePath p c count routes).routes, r ∈ routes) ∧
      (choosePath p c count routes).sources.Perm (List.range count) := by
  have hsource : ∀ r ∈ routes, r.source < count := by
    intro r hr
    simpa using h.mem_sources r hr
  obtain ⟨hfirst, hlength⟩ := isSound_bestPath p c none (canGoOn_of_areSound h)
  unfold choosePath
  dsimp only
  split
  · exact ⟨hfirst.mem_routes, sources_perm hfirst hlength hsource⟩
  · generalize some (max 1 ((bestPath p c count none routes).rows + 1)) = sorting
    obtain ⟨hbest, hlength⟩ := isSound_bestPath p c sorting (canGoOn_withoutScans h hfirst)
    have hsubset : ∀ r ∈ withoutScans routes (bestPath p c count none routes), r ∈ routes :=
      fun r hr => (mem_withoutScans.1 hr).1
    refine ⟨?_, ?_⟩
    · intro r hr
      rw [routes_orderWithin] at hr
      exact hsubset r (hbest.mem_routes r hr)
    · unfold Path.sources
      rw [routes_orderWithin]
      exact sources_perm hbest hlength fun r hr => hsource r (hsubset r hr)

end Tabula.Store.Access
