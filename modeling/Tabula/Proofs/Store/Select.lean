import Tabula.Proofs.Store.Access.Goals
import Tabula.Proofs.Store.CellOrder
import Tabula.Proofs.Store.Locate

/-!
# What a select statement gives

When the tables and columns of a select statement are found, its result has one row for each
combination of one row of every source for which the comparisons of all joins and the condition are
true (`select_of_resolved`). Whatever is compared, a result has rows of such combinations only
(`exists_resolved_of_select`).
-/

namespace Tabula.Store

open Access (Atom Goal IsAnswer settle truthOf)
open Formula (atomsOf)
open Sql (ColumnRef Select)

/-! ## Settled conjuncts -/

variable {parts : List (Formula Check)} {choice : Choice}

/-- Marking settled columns changes no truth value. -/
theorem holds_settle (choice : Choice) (parts : List (Formula Check)) :
    ((settle parts).all fun f => (truthOf choice f).holds)
      = parts.all fun f => (f.eval (Check.eval choice)).holds := by
  have hfst : (parts.all fun f => (f.eval (Check.eval choice)).holds)
      = parts.zipIdx.all fun entry => (entry.1.eval (Check.eval choice)).holds := by
    conv_lhs => rw [← List.zipIdx_map_fst 0 parts, List.all_map]
    rfl
  unfold settle
  dsimp only
  rw [List.all_map, hfst]
  congr 1
  funext entry
  exact congrArg Truth.holds (Formula.eval_map _ _ entry.1)

/-- Marking settled columns adds no checks. -/
theorem check_mem_of_mem_settle {f : Formula Atom} (hf : f ∈ settle parts) {a : Atom}
    (ha : a ∈ f.atoms) : a.check ∈ atomsOf parts := by
  unfold settle at hf
  obtain ⟨⟨g, i⟩, hg, rfl⟩ := List.mem_map.1 hf
  rw [Formula.atoms_map] at ha
  obtain ⟨check, hcheck, rfl⟩ := List.mem_map.1 ha
  have hg : parts[i]? = some g := List.mem_zipIdx_iff_getElem?.1 hg
  exact Formula.mem_atomsOf_iff.2 ⟨g, List.mem_of_getElem? hg, hcheck⟩

section Choices

/-! ## The choices of a tour -/

/-- Whether the checks of a statement are true for a choice. -/
def meetsChecks (condition : Formula Check) (joins : List Check) (choice : Choice) : Bool :=
  (condition.eval (Check.eval choice)).holds && joins.all fun c => (c.eval choice).holds

variable {sources : List Source} {condition : Formula Check} {joins : List Check}

/-- Whether a place is in one of some sources. -/
def Place.IsIn (sources : List Source) (p : Place) : Prop :=
  ∃ s slot, sources[p.source]? = some s ∧ p = s.place p.source slot

/-- Whether the checks of a statement look at places in its sources, and for no combination of rows
pass over one that they should find. -/
structure AreSearchable (sources : List Source) (condition : Formula Check) (joins : List Check) :
    Prop where
  places : ∀ check ∈ condition.atoms ++ joins, ∀ p ∈ check.places, p.IsIn sources
  passesOver_eq : ∀ rows ∈ combinations (sources.map Source.relation),
    ∀ check ∈ condition.atoms ++ joins, check.passesOver (Choice.ofRows rows) = false

/-- Every combination of rows can be searched at the places in its sources. -/
theorem isSearchable_of_isIn {p : Place} (h : p.IsIn sources) {rows : List Row}
    (hrows : rows ∈ combinations (sources.map Source.relation)) :
    (Choice.ofRows rows).IsSearchable p := by
  intro hslot
  obtain ⟨s, slot, hs, hp⟩ := h
  have hlt : p.source < rows.length := by
    rw [length_of_mem_combinations hrows, List.length_map]
    exact (List.getElem?_eq_some_iff.1 hs).1
  constructor
  · rw [hp] at hslot ⊢
    show s.relation.affinity slot = .integer
    obtain rfl : slot = .rowId := hslot
    rfl
  · refine ⟨rows[p.source].id, ?_⟩
    unfold cellAt Choice.ofRows
    rw [List.getElem?_map, List.getElem?_eq_getElem hlt, hslot]
    rfl

/-- Goals that answer formulas are met when the formulas hold. -/
theorem holds_of_areAnswers {goals : List (Formula Goal)} {formulas : List (Formula Atom)}
    (h : List.Forall₂ IsAnswer goals formulas)
    (hsearchable : ∀ f ∈ formulas, ∀ a ∈ f.atoms, a.check.IsSearchable choice) :
    meetsAll choice goals = formulas.all fun f => (truthOf choice f).holds := by
  unfold meetsAll
  induction h with
  | nil => rfl
  | @cons goal f goals formulas hfirst _ ih =>
      rw [List.all_cons, List.all_cons, hfirst.holds choice (hsearchable f List.mem_cons_self),
        ih fun g hg => hsearchable g (List.mem_cons_of_mem _ hg)]

/-- A tour whose goals answer the checks of a statement chooses by them. -/
theorem choices_of_isAnswer {tour : Access.Tour} (hsources : sources ≠ [])
    (hfound : AreSearchable sources condition joins)
    (hlegs : (tour.legs.map Access.Leg.source).Perm (List.range sources.length))
    (hgoals : List.Forall₂ IsAnswer tour.goals
      (settle (condition.flatten.conjuncts ++ joins.map .atom))) :
    (choices sources tour).Perm (((combinations (sources.map Source.relation)).map
      Choice.ofRows).filter (meetsChecks condition joins)) := by
  have hatoms : ∀ check ∈ atomsOf (condition.flatten.conjuncts ++ joins.map .atom),
      check ∈ condition.atoms ++ joins := by
    intro check hcheck
    rwa [Formula.atomsOf_append, Formula.atomsOf_conjuncts, Formula.atoms_flatten,
      Formula.atomsOf_map_atom] at hcheck
  have hchecks : ∀ f ∈ settle (condition.flatten.conjuncts ++ joins.map .atom), ∀ a ∈ f.atoms,
      a.check ∈ condition.atoms ++ joins :=
    fun f hf a ha => hatoms a.check (check_mem_of_mem_settle hf ha)
  -- First the choices are those that meet the goals, and then the goals are met where the checks
  -- are.
  refine (choices_perm hsources hlegs ?_ ?_).trans ?_
  · intro goal hgoal
    obtain ⟨f, -, hanswer⟩ := hgoals.exists_of_mem_left hgoal
    exact hanswer.isProper
  · intro goal hgoal i hi
    obtain ⟨f, hf, hanswer⟩ := hgoals.exists_of_mem_left hgoal
    obtain ⟨p, hp, rfl⟩ := List.mem_map.1 hi
    obtain ⟨g, hg, hp⟩ := List.mem_flatMap.1 hp
    obtain ⟨a, ha, hp⟩ := List.mem_flatMap.1 ((hanswer.isDrawn g hg).places p hp)
    obtain ⟨s, -, hs, -⟩ := hfound.places a.check (hchecks f hf a ha) p hp
    exact (List.getElem?_eq_some_iff.1 hs).1
  · apply List.Perm.of_eq
    apply List.filter_congr
    intro choice hchoice
    obtain ⟨rows, hrows, rfl⟩ := List.mem_map.1 hchoice
    have hsearchable : ∀ f ∈ settle (condition.flatten.conjuncts ++ joins.map .atom),
        ∀ a ∈ f.atoms, a.check.IsSearchable (Choice.ofRows rows) := by
      intro f hf a ha
      have hcheck := hchecks f hf a ha
      refine ⟨?_, hfound.passesOver_eq rows hrows a.check hcheck⟩
      exact fun p hp => isSearchable_of_isIn (hfound.places a.check hcheck p hp) hrows
    rw [holds_of_areAnswers hgoals hsearchable, holds_settle, List.all_append, List.all_map]
    unfold meetsChecks
    congr 1
    rw [← Formula.eval_flatten (Check.eval _) condition, ← Formula.evalAll_conjuncts,
      Formula.holds_evalAll]

/-- The tour of a select statement comes to every source once, and its goals answer the checks. -/
theorem isAnswer_readingTour (sources : List Source) (condition : Formula Check) (joins : List Check)
    (ordering : List (Place × Sql.Direction)) (columns : List Place) :
    ((readingTour sources condition joins ordering columns).legs.map Access.Leg.source).Perm
        (List.range sources.length) ∧
      List.Forall₂ IsAnswer (readingTour sources condition joins ordering columns).goals
        (settle (condition.flatten.conjuncts ++ joins.map .atom)) := by
  have htour := Access.isAnswer_tourOf (Access.Problem.mk (sources.map Source.relation)
    (slotsUsed sources (columns ++ ordering.map (·.1)
      ++ (condition.atoms ++ joins).flatMap Check.places)) ordering columns.length false)
    (settle (condition.flatten.conjuncts ++ joins.map .atom))
  rw [List.length_map] at htour
  exact htour

/-- The choices of a reading tour are the combinations of rows for which the checks are true. -/
theorem choices_readingTour {ordering : List (Place × Sql.Direction)} {columns : List Place}
    (hsources : sources ≠ []) (hfound : AreSearchable sources condition joins) :
    (choices sources (readingTour sources condition joins ordering columns)).Perm
      (((combinations (sources.map Source.relation)).map Choice.ofRows).filter
        (meetsChecks condition joins)) := by
  have htour := isAnswer_readingTour sources condition joins ordering columns
  exact choices_of_isAnswer hsources hfound htour.1 htour.2

end Choices

/-! ## Select statements -/

/-- A select statement with what its tables, columns and values are in a store. -/
structure Resolved (s : Store) (q : Select) where
  base : Relation
  joined : List Source
  joins : List Check
  columns : List Place
  condition : Formula Check
  ordering : List (Place × Sql.Direction)
  base_eq : s.readable q.table = .ok base
  joined_eq : (q.joins.mapM fun step => do
    return Source.mk [step.aliasName] (← s.readable step.table)) = .ok joined
  joins_eq : q.joins.mapM (checkOfStep (baseSource base :: joined)) = .ok joins
  columns_eq : q.columns.mapM (locate (baseSource base :: joined)) = .ok columns
  condition_eq : checksOfClause (baseSource base :: joined) q.condition = .ok condition
  ordering_eq : (q.ordering.mapM fun (r, d) => do
    return ((← locate (baseSource base :: joined) r), d)) = .ok ordering

/-- The sources of a select statement. -/
def Resolved.sources {s : Store} {q : Select} (found : Resolved s q) : List Source :=
  baseSource found.base :: found.joined

/-- The error of a select statement that is too large, or that comes to a pattern that is too
long. -/
def IsLimit (q : Select) (e : Error) : Prop :=
  checkSelect q = .error e ∨ e = .storage .patternTooLong

/-- The first of some entries, if there is a limit. -/
def upTo {α : Type} (limit : Option Int64) (entries : List α) : List α :=
  match limit with
  | some n => entries.take n.toNatClampNeg
  | none => entries

theorem isTextual_of_mayHaveLongPattern {relations : List Relation} {check : Check}
    (h : mayHaveLongPattern relations check = true) : Access.isTextual check = true := by
  cases check with
  | value left method right => exact (Bool.and_eq_true_iff.1 h).1
  | column left method right => exact (Bool.and_eq_true_iff.1 h).1
  | decided holds => cases h
  | list left method right => cases h

/-- A tour comes to no pattern that is too long if no check of what its goals answer has one. -/
theorem checkPatterns_of_isAnswer {sources : List Source} {tour : Access.Tour}
    {formulas : List (Formula Atom)} (hgoals : List.Forall₂ IsAnswer tour.goals formulas)
    (hshort : ∀ f ∈ formulas, ∀ a ∈ f.atoms,
      mayHaveLongPattern (sources.map Source.relation) a.check = false) :
    checkPatterns sources tour = .ok () := by
  unfold checkPatterns
  dsimp only
  rw [if_neg]
  · rfl
  intro hlong
  obtain ⟨check, hcheck, hlong⟩ := List.any_eq_true.1 (Bool.and_eq_true_iff.1 hlong).1
  obtain ⟨g, hg, rfl⟩ := List.mem_map.1 hcheck
  obtain ⟨goal, hgoal, hg⟩ := List.mem_flatMap.1 hg
  obtain ⟨f, hf, hanswer⟩ := hgoals.exists_of_mem_left hgoal
  obtain ⟨a, ha, hsame⟩ :=
    (hanswer.isDrawn g hg).exists_atom (isTextual_of_mayHaveLongPattern hlong)
  rw [← hsame, hshort f hf a ha] at hlong
  cases hlong

theorem checkPatterns_eq_error {sources : List Source} {tour : Access.Tour} {e : Error}
    (h : checkPatterns sources tour = .error e) : e = .storage .patternTooLong := by
  unfold checkPatterns at h
  dsimp only at h
  split at h
  · exact (Except.error.inj h).symm
  · cases h

namespace Resolved

variable {s : Store} {q : Select}

/-- The tour of a select statement. -/
def tour (found : Resolved s q) : Access.Tour :=
  readingTour found.sources found.condition found.joins found.ordering found.columns

/-- The choices of a select statement in its order. -/
def chosen (found : Resolved s q) : List Choice :=
  if found.ordering.isEmpty then choices found.sources found.tour
  else (choices found.sources found.tour).mergeSort fun a b => standsBefore a b found.ordering

theorem select_eq (found : Resolved s q) :
    s.select q = do
      checkSelect q
      checkPatterns found.sources found.tour
      return (upTo q.limit found.chosen).map fun choice => found.columns.map (cellAt choice) := by
  unfold select
  rw [found.base_eq, Except.ok_bind, found.joined_eq, Except.ok_bind]
  dsimp only
  rw [found.joins_eq, Except.ok_bind, found.columns_eq, Except.ok_bind, found.condition_eq,
    Except.ok_bind, found.ordering_eq, Except.ok_bind]
  rfl

/-- A statement comes to no pattern that is too long if no check of it has one. -/
theorem checkPatterns_eq_ok (found : Resolved s q)
    (hshort : ∀ check ∈ found.condition.atoms ++ found.joins,
      mayHaveLongPattern (found.sources.map Source.relation) check = false) :
    checkPatterns found.sources found.tour = .ok () := by
  apply checkPatterns_of_isAnswer
    (isAnswer_readingTour found.sources found.condition found.joins found.ordering found.columns).2
  intro f hf a ha
  have hcheck := check_mem_of_mem_settle hf ha
  rw [Formula.atomsOf_append, Formula.atomsOf_conjuncts, Formula.atoms_flatten,
    Formula.atomsOf_map_atom] at hcheck
  exact hshort a.check hcheck

/-- The choices of a select statement come in the order of its ordering. -/
theorem pairwise_chosen (found : Resolved s q) :
    found.chosen.Pairwise fun a b => standsBefore a b found.ordering = true := by
  unfold chosen
  split
  · next hempty =>
      rw [List.isEmpty_iff.1 hempty]
      exact List.pairwise_of_forall fun a b => rfl
  · exact pairwise_standsBefore _ _

/-- The choices of a select statement are those for which its checks are true. -/
theorem chosen_perm (found : Resolved s q)
    (hfound : AreSearchable found.sources found.condition found.joins) :
    found.chosen.Perm (((combinations (found.sources.map Source.relation)).map
      Choice.ofRows).filter (meetsChecks found.condition found.joins)) := by
  have hchoices : (choices found.sources found.tour).Perm _ :=
    choices_readingTour (List.cons_ne_nil _ _) hfound
  unfold chosen
  split
  · exact hchoices
  · exact (List.mergeSort_perm _ _).trans hchoices

end Resolved

/-- **What a select statement gives.** Unless it is too large, its rows are those of the combinations
of rows for which its checks are true, in its order and up to its limit. -/
theorem select_of_resolved {s : Store} {q : Select} (found : Resolved s q)
    (hfound : AreSearchable found.sources found.condition found.joins) :
    (∃ e, s.select q = .error e ∧ IsLimit q e) ∨
      ∃ chosen : List Choice,
        chosen.Perm (((combinations (found.sources.map Source.relation)).map
          Choice.ofRows).filter (meetsChecks found.condition found.joins)) ∧
        chosen.Pairwise (fun a b => standsBefore a b found.ordering = true) ∧
        s.select q = .ok ((upTo q.limit chosen).map fun choice =>
          found.columns.map (cellAt choice)) := by
  rw [found.select_eq]
  cases hcheck : checkSelect q with
  | error e => exact .inl ⟨e, rfl, .inl hcheck⟩
  | ok _ => cases hpatterns : checkPatterns found.sources found.tour with
    | error e => exact .inl ⟨e, rfl, .inr (checkPatterns_eq_error hpatterns)⟩
    | ok _ => exact .inr ⟨found.chosen, found.chosen_perm hfound, found.pairwise_chosen, rfl⟩

theorem mem_of_mem_upTo {α : Type} {limit : Option Int64} {entries : List α} {a : α}
    (h : a ∈ upTo limit entries) : a ∈ entries := by
  unfold upTo at h
  split at h
  · exact List.mem_of_mem_take h
  · exact h

/-- **Rows that are given are rows of combinations.** What a select statement gives, whether or not
its comparisons can be searched for, are the columns of combinations of one row of each source. -/
theorem exists_resolved_of_select {s : Store} {q : Select} {rows : List (List Cell)}
    (h : s.select q = .ok rows) :
    ∃ found : Resolved s q, ∀ row ∈ rows,
      ∃ combination ∈ combinations (found.sources.map Source.relation),
        row = found.columns.map (cellAt (Choice.ofRows combination)) := by
  have hselect := h
  obtain ⟨_, -, h⟩ := Except.bind_eq_ok_iff.1 h
  obtain ⟨base, hbase, h⟩ := Except.bind_eq_ok_iff.1 h
  obtain ⟨joined, hjoined, h⟩ := Except.bind_eq_ok_iff.1 h
  obtain ⟨joins, hjoins, h⟩ := Except.bind_eq_ok_iff.1 h
  obtain ⟨columns, hcolumns, h⟩ := Except.bind_eq_ok_iff.1 h
  obtain ⟨condition, hcondition, h⟩ := Except.bind_eq_ok_iff.1 h
  obtain ⟨ordering, hordering, -⟩ := Except.bind_eq_ok_iff.1 h
  let found : Resolved s q :=
    ⟨base, joined, joins, columns, condition, ordering, hbase, hjoined, hjoins, hcolumns, hcondition,
      hordering⟩
  refine ⟨found, ?_⟩
  rw [found.select_eq] at hselect
  obtain ⟨_, -, hselect⟩ := Except.bind_eq_ok_iff.1 hselect
  obtain ⟨_, -, hselect⟩ := Except.bind_eq_ok_iff.1 hselect
  obtain rfl := Except.ok.inj hselect
  intro row hrow
  obtain ⟨choice, hchoice, rfl⟩ := List.mem_map.1 hrow
  have hmem : choice ∈ choices found.sources found.tour := by
    have hchosen := mem_of_mem_upTo hchoice
    unfold Resolved.chosen at hchosen
    split at hchosen
    · exact hchosen
    · exact List.mem_mergeSort.1 hchosen
  obtain ⟨combination, hcombination, rfl⟩ := exists_of_mem_choices
    (isAnswer_readingTour found.sources found.condition found.joins found.ordering found.columns).1 hmem
  exact ⟨combination, hcombination, rfl⟩

end Tabula.Store
