import Mathlib.Data.Multiset.Bind
import Tabula.Proofs.Logic.Formula
import Tabula.Store.Execute

/-!
# Choices of a tour

A tour takes the sources of a statement in some order and drops a choice of rows as soon as a goal
can be decided that it does not meet. Main statements: whatever the order, the choices that are left
are those of all combinations of one row of each source that meet all goals (`choices_perm`), and
whatever the goals are, they are of such combinations (`exists_of_mem_choices`).
-/

namespace Tabula.Store

open Access (Arrangement Goal Leg Tour)

variable {relations : List Relation}

/-! ## All combinations -/

/-- The combinations of one row of each of some tables, those of the first table outermost. -/
def combinations : List Relation → List (List Row)
  | [] => [[]]
  | rel :: relations => rel.rows.flatMap fun r => (combinations relations).map (r :: ·)

/-- A combination as a choice. -/
def Choice.ofRows (rows : List Row) : Choice := rows.map some

/-- A combination has a row of each table. -/
theorem forall₂_of_mem_combinations {rows : List Row} (h : rows ∈ combinations relations) :
    List.Forall₂ (fun rel r => r ∈ rel.rows) relations rows := by
  induction relations generalizing rows with
  | nil =>
      obtain rfl : rows = [] := by simpa [combinations] using h
      exact .nil
  | cons rel relations ih =>
      rw [combinations, List.mem_flatMap] at h
      obtain ⟨r, hr, h⟩ := h
      obtain ⟨rest, hrest, rfl⟩ := List.mem_map.1 h
      exact .cons hr (ih hrest)

/-- A combination has a row of each table. -/
theorem length_of_mem_combinations {rows : List Row} (h : rows ∈ combinations relations) :
    rows.length = relations.length :=
  (forall₂_of_mem_combinations h).length_eq.symm

/-- The combinations of two lists of tables are those of the first with those of the second. -/
theorem combinations_append (first second : List Relation) :
    combinations (first ++ second)
      = (combinations first).flatMap fun rows => (combinations second).map (rows ++ ·) := by
  induction first with
  | nil => simp [combinations]
  | cons rel first ih =>
      simp only [List.cons_append, combinations, ih, List.flatMap_assoc, List.map_flatMap,
        List.flatMap_map, List.map_map]
      rfl

/-! ## One more source -/

/-- The rows of a source. -/
def rowsOf (relations : List Relation) (source : Nat) : List Row :=
  (relations[source]?.map Relation.rows).getD []

/-- Choices with the row of one more source, in all ways. -/
def spread (relations : List Relation) (source : Nat) (chosen : List Choice) : List Choice :=
  chosen.flatMap fun choice => (rowsOf relations source).map fun r => choice.set source (some r)

/-- Choices with the rows of more sources, one source after the other. -/
def spreadAll (relations : List Relation) (sources : List Nat) (chosen : List Choice) :
    List Choice :=
  sources.foldl (fun chosen source => spread relations source chosen) chosen

/-- Arranging rows changes their order alone. -/
theorem arrange_perm (a : Arrangement) (choice : Choice) (source : Nat) (rows : List Row) :
    (a.arrange choice source rows).Perm rows := by
  unfold Arrangement.arrange
  split
  · exact .refl rows
  · exact List.reverse_perm rows
  · exact List.mergeSort_perm _ _

/-- The arrangement of a leg does not change which choices there are. -/
theorem withRows_perm (leg : Leg) (chosen : List Choice) :
    (withRows relations leg chosen).Perm (spread relations leg.source chosen) := by
  unfold withRows
  dsimp only
  split
  · apply List.Perm.flatMap_left
    intro choice _
    exact (arrange_perm _ _ _ _).map _
  · apply List.Perm.flatMap_left
    intro choice _
    exact (arrange_perm _ _ _ _).map _

/-- The order of choices bears on the order of what they are spread to. -/
theorem spread_perm {source : Nat} {chosen chosen' : List Choice} (h : chosen.Perm chosen') :
    (spread relations source chosen).Perm (spread relations source chosen') :=
  h.flatMap_right _

/-- So it does over several sources. -/
theorem spreadAll_perm {sources : List Nat} {chosen chosen' : List Choice}
    (h : chosen.Perm chosen') :
    (spreadAll relations sources chosen).Perm (spreadAll relations sources chosen') := by
  induction sources generalizing chosen chosen' with
  | nil => exact h
  | cons source sources ih => exact ih (spread_perm h)

/-- More choices are spread to more. -/
theorem spreadAll_subset {sources : List Nat} {chosen chosen' : List Choice}
    (h : chosen ⊆ chosen') :
    spreadAll relations sources chosen ⊆ spreadAll relations sources chosen' := by
  induction sources generalizing chosen chosen' with
  | nil => exact h
  | cons source sources ih =>
      apply ih
      intro choice hchoice
      obtain ⟨start, hstart, hmem⟩ := List.mem_flatMap.1 hchoice
      exact List.mem_flatMap.2 ⟨start, h hstart, hmem⟩

/-- Two sources can be taken in either order. -/
theorem spread_comm (a b : Nat) (chosen : List Choice) :
    (spread relations a (spread relations b chosen)).Perm
      (spread relations b (spread relations a chosen)) := by
  by_cases hab : a = b
  · rw [hab]
  · unfold spread
    rw [List.flatMap_assoc, List.flatMap_assoc]
    apply List.Perm.flatMap_left
    intro choice _
    rw [List.flatMap_map, List.flatMap_map, ← Multiset.coe_eq_coe]
    have hcomm := Multiset.bind_bind (rowsOf relations b : Multiset Row) (rowsOf relations a)
      (f := fun s r => ({(choice.set b (some s)).set a (some r)} : Multiset Choice))
    simp only [Multiset.bind_singleton] at hcomm
    simpa [List.set_comm _ _ hab, Function.comp_def] using hcomm

/-- The order in which sources are taken does not change which choices there are. -/
theorem spreadAll_perm_of_perm {sources sources' : List Nat} (h : sources.Perm sources')
    (chosen : List Choice) :
    (spreadAll relations sources chosen).Perm (spreadAll relations sources' chosen) := by
  induction h generalizing chosen with
  | nil => exact .refl _
  | cons source _ ih => exact ih (spread relations source chosen)
  | swap a b sources => exact spreadAll_perm (spread_comm a b chosen)
  | trans _ _ ih ih' => exact (ih chosen).trans (ih' chosen)

/-- Taking the sources in their own order gives the combinations of their rows. -/
theorem spreadAll_range' (before relations : List Relation) (chosen : List (List Row))
    (h : ∀ rows ∈ chosen, rows.length = before.length) :
    spreadAll (before ++ relations) (List.range' before.length relations.length)
        (chosen.map fun rows => Choice.ofRows rows ++ List.replicate relations.length none)
      = chosen.flatMap fun rows =>
          (combinations relations).map fun rest => Choice.ofRows (rows ++ rest) := by
  induction relations generalizing before chosen with
  | nil => simp [spreadAll, combinations, List.map_eq_flatMap]
  | cons rel relations ih =>
      have hrows : rowsOf (before ++ rel :: relations) before.length = rel.rows := by
        simp [rowsOf]
      -- A row of the next source takes the first of the empty places.
      have hstep : spread (before ++ rel :: relations) before.length
            (chosen.map fun rows => Choice.ofRows rows ++ List.replicate (rel :: relations).length none)
          = (chosen.flatMap fun rows => rel.rows.map fun r => rows ++ [r]).map fun rows =>
              Choice.ofRows rows ++ List.replicate relations.length none := by
        rw [spread, hrows, List.flatMap_map, List.map_flatMap]
        apply List.flatMap_congr
        intro rows hrows
        rw [List.map_map]
        apply List.map_congr_left
        intro r _
        have hlength : before.length = (Choice.ofRows rows).length := by
          simp [Choice.ofRows, h rows hrows]
        rw [hlength, List.length_cons, List.replicate_succ, List.set_append_right _ _ (le_refl _)]
        simp [Choice.ofRows]
      have hlengths : ∀ rows ∈ chosen.flatMap fun rows => rel.rows.map fun r => rows ++ [r],
          rows.length = (before ++ [rel]).length := by
        intro rows hmem
        obtain ⟨first, hfirst, hmem⟩ := List.mem_flatMap.1 hmem
        obtain ⟨r, -, rfl⟩ := List.mem_map.1 hmem
        simp [h first hfirst]
      have hrest := ih (before ++ [rel]) _ hlengths
      rw [List.length_cons, List.range'_succ]
      unfold spreadAll at hrest ⊢
      rw [List.foldl_cons, ← List.length_cons (a := rel), hstep]
      simp only [List.append_assoc, List.singleton_append, List.length_append, List.length_cons,
        List.length_nil, Nat.zero_add] at hrest
      rw [hrest, List.flatMap_assoc]
      apply List.flatMap_congr
      intro rows _
      rw [combinations, List.flatMap_map, List.map_flatMap]
      apply List.flatMap_congr
      intro r _
      simp [List.map_map, Function.comp_def]

/-- Choosing from every source gives every combination. -/
theorem spreadAll_range (relations : List Relation) :
    spreadAll relations (List.range relations.length) [List.replicate relations.length none]
      = (combinations relations).map Choice.ofRows := by
  have h := spreadAll_range' [] relations [[]] (by simp)
  have hnil : Choice.ofRows [] = [] := rfl
  simpa [hnil, List.range_eq_range'] using h

/-- Coming to every source once, in any order, gives the combinations of their rows. -/
theorem spreadAll_legs {sources : List Source} {legs : List Leg}
    (h : (legs.map Leg.source).Perm (List.range sources.length)) :
    (spreadAll (sources.map Source.relation) (legs.map Leg.source) [noChoice sources]).Perm
      ((combinations (sources.map Source.relation)).map Choice.ofRows) := by
  have hrange := spreadAll_range (sources.map Source.relation)
  rw [List.length_map] at hrange
  rw [← hrange]
  exact spreadAll_perm_of_perm h _

/-! ## Goals -/

/-- Choosing a row of one source leaves the cells of the others. -/
theorem cellAt_set_of_ne {choice : Choice} {source : Nat} {r : Option Row} {p : Place}
    (h : p.source ≠ source) : cellAt (choice.set source r) p = cellAt choice p := by
  unfold cellAt
  rw [List.getElem?_set_ne (Ne.symm h)]

/-- A check is decided by the cells at its places. -/
theorem Check.eval_congr {a b : Choice} {c : Check} (h : ∀ p ∈ c.places, cellAt a p = cellAt b p) :
    c.eval a = c.eval b := by
  cases c with
  | decided holds => rfl
  | value left method right => simp [Check.eval, h left (by simp [Check.places])]
  | list left method right => simp [Check.eval, h left (by simp [Check.places])]
  | column left method right =>
      simp [Check.eval, h left (by simp [Check.places]), h right (by simp [Check.places])]

/-- What a search by row id finds depends on the cells that it looks at. -/
theorem Check.foundById_congr {a b : Choice} {sought : Place} {c : Check}
    (hsought : sought ∈ c.places) (h : ∀ p ∈ c.places, cellAt a p = cellAt b p) :
    c.foundById a sought = c.foundById b sought := by
  cases c with
  | decided holds => rfl
  | value left method right =>
      simp only [foundById]
      split
      · next key _ => exact eval_congr (c := .value left method key) h
      · rfl
  | list left method right =>
      exact eval_congr (c := .list left method (right.filterMap soughtId?)) h
  | column left method right =>
      simp only [foundById]
      have hother : cellAt a (if sought = left then right else left)
          = cellAt b (if sought = left then right else left) := by
        apply h
        split <;> simp [Check.places]
      rw [hother]
      split
      · apply eval_congr
        intro p hp
        obtain rfl : p = sought := by simpa [Check.places] using hp
        exact h p hsought
      · rfl

/-- Whether the column that a goal is sought by is one that its check looks at. -/
def Access.Goal.IsProper (g : Goal) : Prop := ∀ p ∈ g.sought, p ∈ g.check.places

/-- So does whether a goal is met. -/
theorem Access.Goal.eval_congr {a b : Choice} {g : Goal} (hg : g.IsProper)
    (h : ∀ p ∈ g.check.places, cellAt a p = cellAt b p) : g.eval a = g.eval b := by
  unfold Goal.eval
  split
  · exact Check.eval_congr h
  · next column hcolumn =>
      unfold Check.found
      split
      · exact Check.foundById_congr (hg column hcolumn) h
      · exact Check.eval_congr h

/-- Whether all goals of a formula are proper. -/
def AreProper (goal : Formula Goal) : Prop := ∀ g ∈ goal.atoms, g.IsProper

/-- A goal is decided without the sources that it does not look at. -/
theorem eval_set_of_not_lookedAt {goal : Formula Goal} (hproper : AreProper goal) {source : Nat}
    (h : source ∉ lookedAt goal) (choice : Choice) (r : Option Row) :
    goal.eval (Goal.eval (choice.set source r)) = goal.eval (Goal.eval choice) := by
  apply Formula.eval_congr
  intro g hg
  apply Goal.eval_congr (hproper g hg)
  intro p hp
  apply cellAt_set_of_ne
  rintro rfl
  exact h (List.mem_map.2 ⟨p, List.mem_flatMap.2 ⟨g, hg, hp⟩, rfl⟩)

/-- Dropping choices that do not meet goals about other sources commutes with taking a source. -/
theorem filter_spread (relations : List Relation) {goals : List (Formula Goal)}
    (hproper : ∀ goal ∈ goals, AreProper goal) {source : Nat}
    (h : ∀ goal ∈ goals, source ∉ lookedAt goal) (chosen : List Choice) :
    (spread relations source chosen).filter (meetsAll · goals)
      = spread relations source (chosen.filter (meetsAll · goals)) := by
  have hmeets : ∀ choice r, meetsAll (choice.set source (some r)) goals = meetsAll choice goals := by
    intro choice r
    unfold meetsAll
    rw [Bool.eq_iff_iff, List.all_eq_true, List.all_eq_true]
    apply forall₂_congr
    intro goal hgoal
    rw [eval_set_of_not_lookedAt (hproper goal hgoal) (h goal hgoal)]
  unfold spread
  induction chosen with
  | nil => rfl
  | cons choice chosen ih =>
      rw [List.flatMap_cons, List.filter_append, ih, List.filter_map]
      by_cases hchoice : meetsAll choice goals
      · simp [hchoice, hmeets, Function.comp_def]
      · simp [hchoice, hmeets, Function.comp_def]

/-- What does not look at sources may be checked before they are chosen from. -/
theorem filter_spreadAll {goals : List (Formula Goal)} (hproper : ∀ goal ∈ goals, AreProper goal)
    {sources : List Nat} (h : ∀ goal ∈ goals, ∀ i ∈ sources, i ∉ lookedAt goal)
    (chosen : List Choice) :
    (spreadAll relations sources chosen).filter (meetsAll · goals)
      = spreadAll relations sources (chosen.filter (meetsAll · goals)) := by
  induction sources generalizing chosen with
  | nil => rfl
  | cons source sources ih =>
      have hfirst := filter_spread relations hproper
        (fun goal hgoal => h goal hgoal source (by simp)) chosen
      have hrest := ih (fun goal hgoal i hi => h goal hgoal i (by simp [hi]))
        (spread relations source chosen)
      rw [hfirst] at hrest
      exact hrest

/-! ## Goals on the way -/

/-- Whether a goal is decided once some sources are chosen. -/
def isDecided (before : List Nat) (goal : Formula Goal) : Bool :=
  !before.isEmpty && (lookedAt goal).all before.contains

/-- A goal is due at the source with which it becomes decided. -/
theorem mem_dueGoals_iff {goals : List (Formula Goal)} {before : List Nat} {source : Nat}
    (hsource : source ∉ before) {goal : Formula Goal} :
    goal ∈ dueGoals goals before source ↔
      goal ∈ goals ∧ isDecided (source :: before) goal = true ∧ isDecided before goal = false := by
  have hdue : goal ∈ dueGoals goals before source ↔ goal ∈ goals ∧
      (∀ i ∈ lookedAt goal, i = source ∨ i ∈ before)
        ∧ (source ∈ lookedAt goal ∨ before = [] ∧ lookedAt goal = []) := by
    simp [dueGoals]
  have hbefore : isDecided before goal = false ↔
      before = [] ∨ ∃ i ∈ lookedAt goal, i ∉ before := by
    simp [isDecided, or_iff_not_imp_left]
  have hafter : isDecided (source :: before) goal = true ↔
      ∀ i ∈ lookedAt goal, i = source ∨ i ∈ before := by
    simp [isDecided]
  rw [hdue, hbefore, hafter]
  constructor
  · rintro ⟨hgoal, hall, hlast⟩
    refine ⟨hgoal, hall, ?_⟩
    rcases hlast with hlast | ⟨hnone, -⟩
    · exact .inr ⟨source, hlast, hsource⟩
    · exact .inl hnone
  · rintro ⟨hgoal, hall, hnew⟩
    refine ⟨hgoal, hall, ?_⟩
    rcases hnew with rfl | ⟨i, hi, hnot⟩
    · cases hlooked : lookedAt goal with
      | nil => exact .inr ⟨rfl, rfl⟩
      | cons i rest =>
          have hi := hall i (by simp [hlooked])
          have hi : i = source := by simpa using hi
          exact .inl (by simp [hi])
    · rcases hall i hi with rfl | hbefore
      · exact .inl hi
      · exact absurd hbefore hnot

/-- What is decided stays decided when one more source is chosen. -/
theorem isDecided_cons {before : List Nat} {goal : Formula Goal} (h : isDecided before goal = true)
    (source : Nat) : isDecided (source :: before) goal = true := by
  simp only [isDecided, Bool.and_eq_true, List.all_eq_true] at h ⊢
  refine ⟨rfl, ?_⟩
  intro i hi
  have hmem : i ∈ before := by simpa using h.2 i hi
  simpa using .inr hmem

/-- What is not decided before a source is due at it or is not decided after it. -/
theorem meetsAll_dueGoals {goals : List (Formula Goal)} {before : List Nat} {source : Nat}
    (hsource : source ∉ before) (choice : Choice) :
    (meetsAll choice (goals.filter fun goal => !isDecided (source :: before) goal)
        && meetsAll choice (dueGoals goals before source))
      = meetsAll choice (goals.filter fun goal => !isDecided before goal) := by
  rw [Bool.eq_iff_iff, Bool.and_eq_true]
  simp only [meetsAll, List.all_eq_true, List.mem_filter, Bool.not_eq_true', and_imp]
  constructor
  · rintro ⟨hlater, hnow⟩ goal hgoal hopen
    cases hafter : isDecided (source :: before) goal with
    | true => exact hnow goal ((mem_dueGoals_iff hsource).2 ⟨hgoal, hafter, hopen⟩)
    | false => exact hlater goal hgoal hafter
  · intro hall
    constructor
    · intro goal hgoal hopen
      apply hall goal hgoal
      rw [Bool.eq_false_iff]
      intro hthen
      rw [isDecided_cons hthen source] at hopen
      cases hopen
    · intro goal hdue
      obtain ⟨hgoal, -, hopen⟩ := (mem_dueGoals_iff hsource).1 hdue
      exact hall goal hgoal hopen

/-- Choices carried on along legs are those that meet every goal that was not decided before, of all
choices of rows of the sources to come. -/
theorem carryOn_perm (relations : List Relation) {goals : List (Formula Goal)}
    (hproper : ∀ goal ∈ goals, AreProper goal) {legs : List Leg}
    (hnodup : (legs.map Leg.source).Nodup) (before : List Nat)
    (hbefore : ∀ leg ∈ legs, leg.source ∉ before)
    (hdecided : ∀ goal ∈ goals, isDecided ((legs.map Leg.source).reverse ++ before) goal = true)
    (chosen : List Choice) :
    (carryOn relations goals legs before chosen).Perm
      ((spreadAll relations (legs.map Leg.source) chosen).filter fun choice =>
        meetsAll choice (goals.filter fun goal => !isDecided before goal)) := by
  induction legs generalizing before chosen with
  | nil =>
      have hnone : (goals.filter fun goal => !isDecided before goal) = [] := by
        rw [List.filter_eq_nil_iff]
        intro goal hgoal
        simpa using hdecided goal hgoal
      simp [carryOn, spreadAll, hnone, meetsAll]
  | cons leg legs ih =>
      obtain ⟨hleg, hnodup⟩ := List.nodup_cons.1 hnodup
      have hsource : leg.source ∉ before := hbefore leg (by simp)
      have hnew : ∀ other ∈ legs, other.source ∉ leg.source :: before := by
        intro other hother hmem
        rcases List.mem_cons.1 hmem with heq | hmem
        · exact hleg (List.mem_map.2 ⟨other, hother, heq⟩)
        · exact hbefore other (by simp [hother]) hmem
      have hdecided' : ∀ goal ∈ goals,
          isDecided ((legs.map Leg.source).reverse ++ leg.source :: before) goal = true := by
        intro goal hgoal
        simpa using hdecided goal hgoal
      let due := dueGoals goals before leg.source
      let met := (withRows relations leg chosen).filter (meetsAll · due)
      -- What is due now looks at no source to come, so it can be checked before those are chosen.
      have hlooked : ∀ goal ∈ due, ∀ i ∈ legs.map Leg.source, i ∉ lookedAt goal := by
        intro goal hgoal i hi hmem
        obtain ⟨other, hother, rfl⟩ := List.mem_map.1 hi
        have hall : ∀ i ∈ lookedAt goal, i = leg.source ∨ i ∈ before := by
          simpa [isDecided] using ((mem_dueGoals_iff hsource).1 hgoal).2.1
        exact hnew other hother (by simpa using hall other.source hmem)
      have hmet : met.Perm ((spread relations leg.source chosen).filter (meetsAll · due)) :=
        (withRows_perm leg chosen).filter _
      have hspread : (spreadAll relations (legs.map Leg.source) met).Perm
          ((spreadAll relations (legs.map Leg.source)
            (spread relations leg.source chosen)).filter (meetsAll · due)) := by
        have hdue : ∀ goal ∈ due, AreProper goal :=
          fun goal hgoal => hproper goal ((mem_dueGoals_iff hsource).1 hgoal).1
        rw [filter_spreadAll hdue hlooked]
        exact spreadAll_perm hmet
      have hcarried := ih hnodup (leg.source :: before) hnew hdecided' met
      refine hcarried.trans ((hspread.filter _).trans ?_)
      rw [List.filter_filter]
      apply List.Perm.of_eq
      apply List.filter_congr
      intro choice _
      exact meetsAll_dueGoals hsource choice

/-- **A tour chooses by its goals.** A tour that comes to every source once gives, in some order,
the choices of one row of each source that meet all its goals. -/
theorem choices_perm {sources : List Source} {tour : Tour} (hsources : sources ≠ [])
    (hlegs : (tour.legs.map Leg.source).Perm (List.range sources.length))
    (hproper : ∀ goal ∈ tour.goals, AreProper goal)
    (hlooked : ∀ goal ∈ tour.goals, ∀ i ∈ lookedAt goal, i < sources.length) :
    (choices sources tour).Perm
      (((combinations (sources.map Source.relation)).map Choice.ofRows).filter
        (meetsAll · tour.goals)) := by
  have hmem : ∀ i, i ∈ tour.legs.map Leg.source ↔ i < sources.length := by
    intro i
    rw [hlegs.mem_iff, List.mem_range]
  have hnonempty : tour.legs.map Leg.source ≠ [] := by
    have hlength := List.length_pos_of_ne_nil hsources
    exact List.ne_nil_of_mem ((hmem 0).2 hlength)
  have hdecided : ∀ goal ∈ tour.goals,
      isDecided ((tour.legs.map Leg.source).reverse ++ []) goal = true := by
    intro goal hgoal
    simp only [isDecided, List.append_nil, Bool.and_eq_true, List.all_eq_true]
    refine ⟨by simpa using hnonempty, ?_⟩
    intro i hi
    have hi := (hmem i).2 (hlooked goal hgoal i hi)
    simpa using hi
  have hcarried := carryOn_perm (sources.map Source.relation) hproper
    (hlegs.symm.nodup List.nodup_range) [] (by simp) hdecided [noChoice sources]
  have hall : (tour.goals.filter fun goal => !isDecided [] goal) = tour.goals := by
    simp [isDecided]
  rw [hall] at hcarried
  exact hcarried.trans ((spreadAll_legs hlegs).filter _)

/-- Choices carried on are among those of all rows of the sources to come. -/
theorem carryOn_subset (relations : List Relation) (goals : List (Formula Goal)) (legs : List Leg)
    (before : List Nat) (chosen : List Choice) :
    carryOn relations goals legs before chosen
      ⊆ spreadAll relations (legs.map Leg.source) chosen := by
  induction legs generalizing before chosen with
  | nil => exact List.Subset.refl _
  | cons leg legs ih =>
      refine List.Subset.trans (ih _ _) (spreadAll_subset ?_)
      exact List.Subset.trans (List.filter_subset_self _) (withRows_perm leg chosen).subset

/-- **A tour chooses one row of each source**, whatever its goals are. -/
theorem exists_of_mem_choices {sources : List Source} {tour : Tour}
    (hlegs : (tour.legs.map Leg.source).Perm (List.range sources.length)) {choice : Choice}
    (h : choice ∈ choices sources tour) :
    ∃ rows ∈ combinations (sources.map Source.relation), choice = Choice.ofRows rows := by
  have hspread := carryOn_subset _ _ _ _ _ h
  obtain ⟨rows, hrows, heq⟩ := List.mem_map.1 ((spreadAll_legs hlegs).mem_iff.1 hspread)
  exact ⟨rows, hrows, heq.symm⟩

end Tabula.Store
