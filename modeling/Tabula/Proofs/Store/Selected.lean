import Tabula.Proofs.Store.Select

/-!
# Rows that a statement changes

Which rows of a table a statement sets or removes. Main statements: each of them once, as they are
chosen from the rows of the table (`exists_perm_of_matching`), and, unless a comparison passes over a
row, those for which the condition is true (`perm_of_matching`).
-/

namespace Tabula.Store

open Access (Atom Goal IsAnswer truthOf unsettled)
open Formula (atomsOf)
open Sql (ColumnRef Condition)

variable {sources : List Source} {rel : Relation} {condition : Option Condition}
  {checks : Formula Check} {rows : List Row} {arrangement : Access.Arrangement}

/-! ## Places of checks -/

theorem isIn_of_locate {r : ColumnRef} {p : Place} (h : locate sources r = .ok p) :
    p.IsIn sources := by
  have hmem : p ∈ placesOf sources r := by
    unfold locate at h
    split at h
    · next place hone =>
        rw [hone, Except.ok.inj h]
        exact List.mem_cons_self
    · cases h
    · cases h
  have hcalled : ∀ entry ∈ sources.zipIdx.filter fun entry => entry.1.isCalled r.source,
      sources[entry.2]? = some entry.1 := by
    intro entry hentry
    exact List.mem_zipIdx_iff_getElem?.1 (List.mem_filter.1 hentry).1
  unfold placesOf at hmem
  dsimp only at hmem
  split at hmem
  · next s i _ hone =>
      have hs := hcalled (s, i) (by rw [hone]; exact List.mem_cons_self)
      obtain ⟨slot, -, rfl⟩ := Option.map_eq_some_iff.1 (Option.mem_toList.1 hmem)
      exact ⟨s, slot, hs, rfl⟩
  · obtain ⟨entry, hentry, hp⟩ := List.mem_filterMap.1 hmem
    obtain ⟨slot, -, rfl⟩ := Option.map_eq_some_iff.1 hp
    exact ⟨entry.1, slot, hcalled entry hentry, rfl⟩

theorem isIn_of_checkOfTest {t : Sql.Test} {check : Check}
    (h : checkOfTest sources t = .ok check) : ∀ p ∈ check.places, p.IsIn sources := by
  intro p hp
  unfold checkOfTest at h
  split at h
  · obtain rfl := Except.ok.inj h
    cases hp
  · obtain ⟨place, hplace, h⟩ := Except.bind_eq_ok_iff.1 h
    obtain ⟨cells, -, h⟩ := Except.bind_eq_ok_iff.1 h
    obtain rfl := Except.ok.inj h
    obtain rfl := List.mem_singleton.1 hp
    exact isIn_of_locate hplace
  · obtain ⟨place, hplace, h⟩ := Except.bind_eq_ok_iff.1 h
    obtain ⟨cell, -, h⟩ := Except.bind_eq_ok_iff.1 h
    obtain rfl := Except.ok.inj h
    obtain rfl := List.mem_singleton.1 hp
    exact isIn_of_locate hplace

/-- The checks of a condition look at places in the sources. -/
theorem isIn_of_checksOfClause (h : checksOfClause sources condition = .ok checks) :
    ∀ check ∈ checks.atoms, ∀ p ∈ check.places, p.IsIn sources := by
  intro check hcheck p hp
  cases condition with
  | none =>
      obtain rfl := Except.ok.inj h
      cases hcheck
  | some c =>
      rcases isAmong_of_checksOf c h check hcheck with ⟨holds, rfl⟩ | ⟨t, -, ht⟩
      · cases hp
      · exact isIn_of_checkOfTest ht p hp

/-! ## Conjuncts that are not settled -/

theorem holds_unsettled (choice : Choice) (parts : List (Formula Check)) :
    ((unsettled parts).all fun f => (truthOf choice f).holds)
      = parts.all fun f => (f.eval (Check.eval choice)).holds := by
  unfold unsettled
  rw [List.all_map]
  congr 1
  funext f
  exact congrArg Truth.holds (Formula.eval_map _ _ f)

theorem check_mem_of_mem_unsettled {parts : List (Formula Check)} {f : Formula Atom}
    (hf : f ∈ unsettled parts) {a : Atom} (ha : a ∈ f.atoms) : a.check ∈ atomsOf parts := by
  obtain ⟨g, hg, rfl⟩ := List.mem_map.1 hf
  rw [Formula.atoms_map] at ha
  obtain ⟨check, hcheck, rfl⟩ := List.mem_map.1 ha
  exact Formula.mem_atomsOf_iff.2 ⟨g, hg, hcheck⟩

/-- The tour of a statement that changes rows comes to its one source, and its goals answer the
checks. -/
theorem isAnswer_changingTour (source : Source) (checks : Formula Check) :
    ((changingTour source checks).legs.map Access.Leg.source).Perm (List.range 1) ∧
      List.Forall₂ IsAnswer (changingTour source checks).goals
        (unsettled checks.flatten.conjuncts) :=
  Access.isAnswer_tourOf (Access.Problem.mk [source.relation]
    (slotsUsed [source] (checks.atoms.flatMap Check.places)) [] 0 true)
    (unsettled checks.flatten.conjuncts)

/-! ## Matching rows -/

/-- The choices of one source are its rows. -/
theorem combinations_singleton (rel : Relation) :
    (combinations [rel]).map Choice.ofRows = rel.rows.map fun r => [some r] := by
  simp [combinations, Choice.ofRows, ← List.map_eq_flatMap]

theorem matching_eq_ok (h : matching rel condition = .ok (rows, arrangement)) :
    ∃ checks, checksOfClause [baseSource rel] condition = .ok checks ∧
      rows = (choices [baseSource rel] (changingTour (baseSource rel) checks)).filterMap
        fun choice => choice.head?.join := by
  obtain ⟨checks, hchecks, h⟩ := Except.bind_eq_ok_iff.1 h
  obtain ⟨-, -, h⟩ := Except.bind_eq_ok_iff.1 h
  exact ⟨checks, hchecks, (Prod.mk.inj (Except.ok.inj h)).1.symm⟩

/-- The rows that match are, in some order, those that meet the goals of the tour. -/
theorem perm_meetsAll (hchecks : checksOfClause [baseSource rel] condition = .ok checks) :
    ((choices [baseSource rel] (changingTour (baseSource rel) checks)).filterMap
        fun choice => choice.head?.join).Perm
      (rel.rows.filter fun r => meetsAll [some r] (changingTour (baseSource rel) checks).goals) := by
  obtain ⟨hlegs, hgoals⟩ := isAnswer_changingTour (baseSource rel) checks
  have hperm := @choices_perm [baseSource rel] _ (List.cons_ne_nil _ _) hlegs
    (fun goal hgoal => by
      obtain ⟨f, -, hanswer⟩ := hgoals.exists_of_mem_left hgoal
      exact hanswer.isProper)
    (fun goal hgoal i hi => by
      obtain ⟨f, hf, hanswer⟩ := hgoals.exists_of_mem_left hgoal
      obtain ⟨p, hp, rfl⟩ := List.mem_map.1 hi
      obtain ⟨g, hg, hp⟩ := List.mem_flatMap.1 hp
      obtain ⟨a, ha, hp⟩ := List.mem_flatMap.1 ((hanswer.isDrawn g hg).places p hp)
      have hcheck := check_mem_of_mem_unsettled hf ha
      rw [Formula.atomsOf_conjuncts, Formula.atoms_flatten] at hcheck
      obtain ⟨s, -, hs, -⟩ := isIn_of_checksOfClause hchecks a.check hcheck p hp
      exact (List.getElem?_eq_some_iff.1 hs).1)
  refine (hperm.filterMap _).trans (.of_eq ?_)
  show (List.filter _ ((combinations [rel]).map Choice.ofRows)).filterMap _ = _
  rw [combinations_singleton, List.filter_map, List.filterMap_map]
  exact List.filterMap_some

/-- Rows can be matched if the checks of the condition have no pattern that is too long. -/
theorem exists_matching (hchecks : checksOfClause [baseSource rel] condition = .ok checks)
    (hshort : ∀ check ∈ checks.atoms, mayHaveLongPattern [rel] check = false) :
    ∃ found, matching rel condition = .ok found := by
  have hpatterns : checkPatterns [baseSource rel] (changingTour (baseSource rel) checks) = .ok () := by
    apply checkPatterns_of_isAnswer (isAnswer_changingTour (baseSource rel) checks).2
    intro f hf a ha
    have hcheck := check_mem_of_mem_unsettled hf ha
    rw [Formula.atomsOf_conjuncts, Formula.atoms_flatten] at hcheck
    exact hshort a.check hcheck
  unfold matching
  dsimp only
  rw [hchecks, Except.ok_bind, hpatterns]
  exact ⟨_, rfl⟩

/-- Matching rows fails only for a pattern that is too long. -/
theorem matching_eq_error {e : Error} (h : matching rel condition = .error e)
    (hchecks : checksOfClause [baseSource rel] condition = .ok checks) :
    e = .storage .patternTooLong := by
  unfold matching at h
  dsimp only at h
  rw [hchecks, Except.ok_bind] at h
  cases hpatterns : checkPatterns [baseSource rel] (changingTour (baseSource rel) checks) with
  | ok _ =>
      rw [hpatterns] at h
      cases h
  | error e' =>
      rw [hpatterns] at h
      obtain rfl := Except.error.inj h
      exact checkPatterns_eq_error hpatterns

/-- **A statement changes rows of its table, each of them once.** -/
theorem exists_perm_of_matching (h : matching rel condition = .ok (rows, arrangement)) :
    ∃ p : Row → Bool, rows.Perm (rel.rows.filter p) := by
  obtain ⟨checks, hchecks, rfl⟩ := matching_eq_ok h
  exact ⟨_, perm_meetsAll hchecks⟩

/-- The rows that a statement changes have different ids if those of the table do. -/
theorem nodup_of_matching (h : matching rel condition = .ok (rows, arrangement))
    (hnodup : (rel.rows.map Row.id).Nodup) : (rows.map Row.id).Nodup := by
  obtain ⟨p, hperm⟩ := exists_perm_of_matching h
  exact (hperm.map Row.id).nodup_iff.2 ((List.filter_sublist.map Row.id).nodup hnodup)

theorem mem_of_matching (h : matching rel condition = .ok (rows, arrangement)) {r : Row}
    (hr : r ∈ rows) : r ∈ rel.rows := by
  obtain ⟨p, hperm⟩ := exists_perm_of_matching h
  exact (List.mem_filter.1 (hperm.mem_iff.1 hr)).1

/-- **A statement changes the rows for which its condition is true**, if no comparison passes over
one of them. -/
theorem perm_of_matching (h : matching rel condition = .ok (rows, arrangement))
    (hchecks : checksOfClause [baseSource rel] condition = .ok checks)
    (hfound : AreSearchable [baseSource rel] checks []) :
    rows.Perm (rel.rows.filter fun r => (checks.eval (Check.eval [some r])).holds) := by
  obtain ⟨others, hothers, rfl⟩ := matching_eq_ok h
  obtain rfl : others = checks := Except.ok.inj (hothers.symm.trans hchecks)
  refine (perm_meetsAll hchecks).trans (.of_eq ?_)
  apply List.filter_congr
  intro r hr
  have hrows : [r] ∈ combinations [rel] := by simpa [combinations] using hr
  have hsearchable : ∀ f ∈ unsettled others.flatten.conjuncts, ∀ a ∈ f.atoms,
      a.check.IsSearchable [some r] := by
    intro f hf a ha
    have hcheck := check_mem_of_mem_unsettled hf ha
    rw [Formula.atomsOf_conjuncts, Formula.atoms_flatten] at hcheck
    have hcheck := List.mem_append_left [] hcheck
    refine ⟨?_, hfound.passesOver_eq [r] hrows a.check hcheck⟩
    exact fun p hp => isSearchable_of_isIn (hfound.places a.check hcheck p hp) hrows
  rw [holds_of_areAnswers (isAnswer_changingTour (baseSource rel) others).2 hsearchable,
    holds_unsettled, ← Formula.eval_flatten (Check.eval _) others, ← Formula.evalAll_conjuncts,
    Formula.holds_evalAll]

/-! ## Ids of some rows -/

section Ids

variable {p : Row → Bool} {r : Row}

/-- With distinct ids, a row is among some rows of a table if its id is among theirs. -/
theorem mem_ids_iff (hnodup : (rel.rows.map Row.id).Nodup) (hrows : rows.Perm (rel.rows.filter p))
    (hr : r ∈ rel.rows) : r.id ∈ rows.map Row.id ↔ p r = true := by
  constructor
  · intro hid
    obtain ⟨other, hother, hsame⟩ := List.mem_map.1 hid
    obtain ⟨hmem, hp⟩ := List.mem_filter.1 (hrows.mem_iff.1 hother)
    obtain rfl : other = r := List.inj_on_of_nodup_map hnodup hmem hr hsame
    exact hp
  · intro hp
    exact List.mem_map_of_mem (hrows.mem_iff.2 (List.mem_filter.2 ⟨hr, hp⟩))

/-- With distinct ids, what is left without some rows are the others. -/
theorem filter_ids_eq (hnodup : (rel.rows.map Row.id).Nodup)
    (hrows : rows.Perm (rel.rows.filter p)) :
    (rel.rows.filter fun r => !rows.any fun gone => gone.id = r.id)
      = rel.rows.filter fun r => !p r := by
  apply List.filter_congr
  intro r hr
  congr 1
  rw [Bool.eq_iff_iff, ← mem_ids_iff hnodup hrows hr]
  simp

end Ids

end Tabula.Store
