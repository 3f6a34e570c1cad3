import Tabula.Proofs.Store.Access.Emptied
import Tabula.Proofs.Store.InOrder
import Tabula.Proofs.Store.Revised
import Tabula.Proofs.Store.Selected

/-!
# Statements that are repeated

Whether a row meets the condition of a statement does not depend on the other rows. Main statements: an
update that is carried out once more leaves its table as it is and is about no more rows, unless it
comes to a pattern that is too long (`set_again`), and a deletion finds nothing more to remove
(`remove_again`).
-/

namespace Tabula.Store

open Access (Goal Leg)
open Sql (ColumnRef Condition)

variable {rel rel' : Relation} {condition : Option Condition} {checks : Formula Check}
  {rows : List Row} {arrangement : Access.Arrangement} {n : Nat}

/-! ## What does not depend on rows -/

/-- With one source, a column reference can only mean the slot of its name. -/
theorem placesOf_singleton (s : Source) (r : ColumnRef) :
    placesOf [s] r = if s.isCalled r.source then
      ((s.relation.slot? r.column).map (s.place 0)).toList else [] := by
  unfold placesOf
  by_cases hcalled : s.isCalled r.source = true
  · cases hdeclared : s.relation.declared? r.column <;>
      simp [hcalled, hdeclared, Relation.slot?]
  · simp [hcalled]

/-- Where a column is found does not depend on the rows of its table. -/
theorem placesOf_emptied (rel : Relation) (r : ColumnRef) :
    placesOf [baseSource rel.emptied] r = placesOf [baseSource rel] r := by
  have hplace : (baseSource rel.emptied).place 0 = (baseSource rel).place 0 := by
    funext slot
    simp [Source.place, baseSource]
  rw [placesOf_singleton, placesOf_singleton, hplace]
  rfl

/-- A comparison is prepared without looking at rows. -/
theorem checkOfTest_emptied (rel : Relation) (t : Sql.Test) :
    checkOfTest [baseSource rel.emptied] t = checkOfTest [baseSource rel] t := by
  simp [checkOfTest, locate, placesOf_emptied]

mutual

/-- So is a condition. -/
theorem checksOf_emptied (rel : Relation) :
    ∀ c, checksOf [baseSource rel.emptied] c = checksOf [baseSource rel] c
  | .atom t => by
    rw [checksOf, checksOf, checkOfTest_emptied]
  | .all [] => by
    rw [checksOf, checksOf]
  | .all (part :: parts) => by
    rw [checksOf, checksOf, checksOfEach_emptied rel (part :: parts)]
    all_goals exact List.cons_ne_nil part parts
  | .any parts => by
    rw [checksOf, checksOf, checksOfEach_emptied rel parts]

theorem checksOfEach_emptied (rel : Relation) :
    ∀ parts, checksOfEach [baseSource rel.emptied] parts = checksOfEach [baseSource rel] parts
  | [] => by
    rw [checksOfEach, checksOfEach]
  | part :: parts => by
    rw [checksOfEach, checksOfEach, checksOf_emptied rel part, checksOfEach_emptied rel parts]

end

/-- So is a clause. -/
theorem checksOfClause_emptied (rel : Relation) (condition : Option Condition) :
    checksOfClause [baseSource rel.emptied] condition = checksOfClause [baseSource rel] condition := by
  cases condition with
  | none => rfl
  | some c => exact checksOf_emptied rel c

/-- The tour of a change is chosen without looking at rows. -/
theorem changingTour_emptied (rel : Relation) (checks : Formula Check) :
    changingTour (baseSource rel.emptied) checks = changingTour (baseSource rel) checks :=
  Access.tourOf_emptied (Access.Problem.mk [rel]
    (slotsUsed [baseSource rel] (checks.atoms.flatMap Check.places)) [] 0 true) _

/-- Tables that differ in their rows alone prepare a clause alike. -/
theorem checksOfClause_congr (h : rel'.emptied = rel.emptied) (condition : Option Condition) :
    checksOfClause [baseSource rel'] condition = checksOfClause [baseSource rel] condition := by
  rw [← checksOfClause_emptied rel', h, checksOfClause_emptied]

/-- They are toured alike. -/
theorem changingTour_congr (h : rel'.emptied = rel.emptied) (checks : Formula Check) :
    changingTour (baseSource rel') checks = changingTour (baseSource rel) checks := by
  rw [← changingTour_emptied rel', h, changingTour_emptied]

/-! ## Rows that match -/

/-- Whether a row meets the goals of the tour that a statement makes in a table. -/
def isMatched (rel : Relation) (checks : Formula Check) (r : Row) : Bool :=
  meetsAll [some r] (changingTour (baseSource rel) checks).goals

/-- A row is matched in one of them exactly if it is in the other. -/
theorem isMatched_congr (h : rel'.emptied = rel.emptied) (checks : Formula Check) :
    isMatched rel' checks = isMatched rel checks := by
  unfold isMatched
  rw [changingTour_congr h]

/-- **The rows that match are those that meet the goals**, each by itself. -/
theorem perm_isMatched (h : matching rel condition = .ok (rows, arrangement)) :
    ∃ checks, checksOfClause [baseSource rel] condition = .ok checks ∧
      rows.Perm (rel.rows.filter (isMatched rel checks)) := by
  obtain ⟨checks, hchecks, rfl⟩ := matching_eq_ok h
  exact ⟨checks, hchecks, perm_meetsAll hchecks⟩

/-- With fewer rows there are no new patterns. -/
theorem mayHaveLongPattern_mono (hsub : rel'.rows ⊆ rel.rows) {check : Check}
    (h : mayHaveLongPattern [rel'] check = true) : mayHaveLongPattern [rel] check = true := by
  cases check with
  | column left method right =>
      obtain ⟨htextual, hany⟩ := Bool.and_eq_true_iff.1 h
      obtain ⟨r, hr, hlong⟩ := List.any_eq_true.1 hany
      refine Bool.and_eq_true_iff.2 ⟨htextual, List.any_eq_true.2 ⟨r, ?_, hlong⟩⟩
      cases hsource : right.source with
      | zero =>
          rw [hsource] at hr
          exact hsub hr
      | succ i =>
          rw [hsource] at hr
          cases hr
  | _ => exact h

/-- A tour of one source comes to a pattern that is too long where deciding the goals of a row does. -/
theorem meetsLongPattern_singleton (goals : List (Formula Goal)) {leg : Leg}
    (hleg : leg.source = 0) :
    meetsLongPattern [rel] goals [leg] [] [[none]] = true ↔
      ∃ r ∈ rel.rows, someOfAll [some r] (searchedFirst (dueGoals goals [] 0)) = true := by
  have hmem (choice : Choice) :
      choice ∈ withRows [rel] leg [[none]] ↔ ∃ r ∈ rel.rows, [some r] = choice := by
    rw [(withRows_perm leg _).mem_iff, hleg]
    simp [spread, rowsOf]
  simp [meetsLongPattern, hleg, hmem]

/-- **Matching rows comes to a pattern that is too long** where one may be among the checks and deciding
the goals of a row comes to it. -/
theorem matching_eq_error_iff (hchecks : checksOfClause [baseSource rel] condition = .ok checks) :
    let goals := (changingTour (baseSource rel) checks).goals
    matching rel condition = .error (.storage .patternTooLong) ↔
      ((goals.flatMap Formula.atoms).map Goal.check).any (mayHaveLongPattern [rel]) = true ∧
        ∃ r ∈ rel.rows, someOfAll [some r] (searchedFirst (dueGoals goals [] 0)) = true := by
  intro goals
  obtain ⟨leg, hlegs, hleg⟩ : ∃ leg, (changingTour (baseSource rel) checks).legs = [leg] ∧
      leg.source = 0 := by
    have hperm := (isAnswer_changingTour (baseSource rel) checks).1
    exact List.map_eq_singleton_iff.1 (List.perm_singleton.1 hperm)
  rw [← meetsLongPattern_singleton goals hleg, ← Bool.and_eq_true_iff]
  unfold matching checkPatterns
  dsimp only
  rw [hchecks, Except.ok_bind, hlegs]
  constructor
  · intro h
    split at h
    · next hlong => exact hlong
    · cases h
  · intro hlong
    split
    · rfl
    · next hshort => exact absurd hlong hshort

/-- A goal that compares with a pattern does so by one of the checks. -/
theorem check_mem_of_isTextual {goal : Formula Goal} {g : Goal}
    (hgoal : goal ∈ (changingTour (baseSource rel) checks).goals) (hg : g ∈ goal.atoms)
    (htextual : Access.isTextual g.check = true) : g.check ∈ checks.atoms := by
  obtain ⟨f, hf, hanswer⟩ :=
    (isAnswer_changingTour (baseSource rel) checks).2.exists_of_mem_left hgoal
  obtain ⟨a, ha, hcheck⟩ := (hanswer.isDrawn g hg).exists_atom htextual
  rw [← hcheck]
  have hmem := check_mem_of_mem_unsettled hf ha
  rwa [Formula.atomsOf_conjuncts, Formula.atoms_flatten] at hmem

/-- What is searched for first is one of the goals. -/
theorem mem_of_mem_searchedFirst {goals : List (Formula Goal)} {goal : Formula Goal}
    {before : List Nat} {source : Nat} (h : goal ∈ searchedFirst (dueGoals goals before source)) :
    goal ∈ goals := by
  rcases List.mem_append.1 h with h | h <;> exact List.mem_of_mem_filter (List.mem_of_mem_filter h)

/-- A row that does not meet the first of two parts is compared with the pattern of the second. -/
theorem matching_eq_error_of_any {first : Formula Goal} {g : Goal} {r : Row}
    (hchecks : checksOfClause [baseSource rel] condition = .ok checks)
    (hgoals : searchedFirst (dueGoals (changingTour (baseSource rel) checks).goals [] 0)
      = [.any [first, .atom g]])
    (hr : r ∈ rel.rows) (hfirst : (first.eval (Goal.eval [some r])).holds = false)
    (hmay : mayHaveLongPattern [rel] g.check = true)
    (hlong : hasLongPattern [some r] g.check = true) :
    matching rel condition = .error (.storage .patternTooLong) := by
  have hgoal : .any [first, .atom g] ∈ (changingTour (baseSource rel) checks).goals := by
    apply mem_of_mem_searchedFirst
    rw [hgoals]
    exact List.mem_singleton_self _
  have hg : g ∈ (Formula.any [first, .atom g]).atoms := by
    simp [Formula.atoms, Formula.atomsOf]
  refine (matching_eq_error_iff hchecks).2 ⟨List.any_eq_true.2 ⟨g.check, ?_, hmay⟩, r, hr, ?_⟩
  · exact List.mem_map_of_mem (List.mem_flatMap.2 ⟨_, hgoal, hg⟩)
  · rw [hgoals]
    simp [someOfAll, comesToLongPattern, someOfAny, hfirst, hlong]

/-- **Where rows can be matched, they can be with fewer of them.** -/
theorem exists_matching_of_subset (h : matching rel condition = .ok (rows, arrangement))
    (hemptied : rel'.emptied = rel.emptied) (hsub : rel'.rows ⊆ rel.rows) :
    ∃ rows arrangement, matching rel' condition = .ok (rows, arrangement) := by
  obtain ⟨checks, hchecks, -⟩ := matching_eq_ok h
  have hchecks' : checksOfClause [baseSource rel'] condition = .ok checks := by
    rw [checksOfClause_congr hemptied, hchecks]
  cases hagain : matching rel' condition with
  | ok found => exact ⟨_, _, rfl⟩
  | error e =>
      -- The row that comes to the pattern is a row of the other table too.
      obtain rfl := matching_eq_error hagain hchecks'
      obtain ⟨hmay, r, hr, hcomes⟩ := (matching_eq_error_iff hchecks').1 hagain
      rw [changingTour_congr hemptied] at hmay hcomes
      obtain ⟨check, hcheck, hmay⟩ := List.any_eq_true.1 hmay
      have hlong := (matching_eq_error_iff hchecks).2
        ⟨List.any_eq_true.2 ⟨check, hcheck, mayHaveLongPattern_mono hsub hmay⟩, r, hsub hr, hcomes⟩
      cases hlong.symm.trans h

/-! ## Deletions -/

/-- **A deletion finds nothing more to remove.** -/
theorem remove_again {q : Sql.Delete} (h : rel.remove q = .ok (rel', n)) :
    rel'.remove q = .ok (rel', 0) := by
  obtain ⟨⟨rows, arrangement⟩, hmatching, h⟩ := Except.bind_eq_ok_iff.1 h
  obtain ⟨hrel', -⟩ := Prod.mk.inj (Except.ok.inj h)
  have hemptied : rel'.emptied = rel.emptied := by rw [← hrel']; rfl
  have hrows : rel'.rows = rel.rows.filter fun r => !rows.any fun gone => gone.id = r.id := by
    rw [← hrel']
  obtain ⟨checks, hchecks, hperm⟩ := perm_isMatched hmatching
  have hsub : rel'.rows ⊆ rel.rows := by
    rw [hrows]
    exact List.filter_subset_self _
  obtain ⟨others, arrangement', hagain⟩ := exists_matching_of_subset hmatching hemptied hsub
  -- A row that would match is among those that are gone.
  have hnone : others = [] := by
    obtain ⟨checks', hchecks', hothers⟩ := perm_isMatched hagain
    rw [checksOfClause_congr hemptied, hchecks] at hchecks'
    obtain rfl := Except.ok.inj hchecks'
    refine List.eq_nil_iff_forall_not_mem.2 fun r hr => ?_
    obtain ⟨hr, hmatched⟩ := List.mem_filter.1 (hothers.mem_iff.1 hr)
    rw [isMatched_congr hemptied] at hmatched
    rw [hrows] at hr
    obtain ⟨hr, hkept⟩ := List.mem_filter.1 hr
    have hgone : r ∈ rows := hperm.mem_iff.2 (List.mem_filter.2 ⟨hr, hmatched⟩)
    have hany : rows.any (fun gone => gone.id = r.id) = true :=
      List.any_eq_true.2 ⟨r, hgone, decide_eq_true rfl⟩
    rw [hany] at hkept
    cases hkept
  unfold Relation.remove
  rw [hagain, Except.ok_bind, hnone]
  simp [pure, Except.pure]

/-! ## Updates -/

namespace Relation

variable {assignment : Assignment}

/-- Tables that are the same without rows differ in their rows alone. -/
theorem eq_of_emptied_eq (h : rel'.emptied = rel.emptied) : rel' = { rel with rows := rel'.rows } :=
  congrArg (fun emptied : Relation => { emptied with rows := rel'.rows }) h

/-- They bind values alike. -/
theorem bind_congr (h : rel'.emptied = rel.emptied) (values : RowValues) :
    rel'.bind values = rel.bind values := by
  rw [eq_of_emptied_eq h]
  rfl

/-- They change a row alike. -/
theorem setCells_congr (h : rel'.emptied = rel.emptied) (r : Row) :
    rel'.setCells assignment r = rel.setCells assignment r := by
  rw [eq_of_emptied_eq h]
  rfl

/-- A row can be set if what is assigned to its id is an id. -/
theorem setCells_eq_ok (hids : ∀ c, lastOf assignment .rowId = some c → ∃ id, idOfCell c = .ok id)
    (r : Row) : rel.setCells assignment r = .ok (rel.changedRow assignment r) := by
  unfold setCells changedRow changedId
  cases hlast : lastOf assignment .rowId with
  | none => rfl
  | some c =>
      obtain ⟨id, hid⟩ := hids c hlast
      dsimp only
      rw [hid]
      rfl

/-- A changed row has as many cells as it had, up to the number of fields. -/
theorem length_changedRow (r : Row) :
    (rel.changedRow assignment r).cells.length = min rel.fields.length r.cells.length := by
  rw [changedRow, length_rowOf]
  simp

/-- A row that is changed twice gets the id that it got. -/
theorem changedId_changedRow (r : Row) :
    changedId assignment (rel.changedRow assignment r) = changedId assignment r := by
  have hid : (rel.changedRow assignment r).id = changedId assignment r := id_rowOf _ _ _
  unfold changedId at hid ⊢
  cases hlast : lastOf assignment .rowId with
  | none => simpa [hlast] using hid
  | some c =>
      rw [hlast] at hid
      dsimp only at hid ⊢
      cases hc : idOfCell c with
      | ok id => rfl
      | error e =>
          rw [hc] at hid
          exact hid

/-- **A row that was set is set to what it is.** -/
theorem changedRow_changedRow (r : Row) :
    rel.changedRow assignment (rel.changedRow assignment r) = rel.changedRow assignment r := by
  have hid : (rel.changedRow assignment (rel.changedRow assignment r)).id
      = (rel.changedRow assignment r).id := by
    rw [changedRow, id_rowOf, changedId_changedRow, changedRow, id_rowOf]
  have hcells : (rel.changedRow assignment (rel.changedRow assignment r)).cells
      = (rel.changedRow assignment r).cells := by
    apply List.ext_getElem?
    intro j
    by_cases hj : j < min rel.fields.length r.cells.length
    · obtain ⟨hfield, hcell⟩ := Nat.lt_min.1 hj
      have hf := List.getElem?_eq_getElem hfield
      have hset : (rel.changedRow assignment r).cells[j]? = some _ :=
        getElem?_changedRow hf (List.getElem?_eq_getElem hcell)
      rw [getElem?_changedRow hf hset, hset, changedId_changedRow]
      split
      · rfl
      · cases lastOf assignment (.field j) <;> rfl
    · rw [List.getElem?_eq_none, List.getElem?_eq_none]
      · rw [length_changedRow]
        exact Nat.not_lt.1 hj
      · rw [length_changedRow, length_changedRow]
        omega
  exact congrArg₂ Row.mk hid hcells

/-- What has been set of the rows that meet a predicate, in the order of some ids. -/
structure HasSet (assignment : Assignment) (p : Row → Bool) (ids : List Int64)
    (rel rel' : Relation) : Prop where
  perm : ids.Perm ((rel.rows.filter p).map Row.id)
  updateRows_eq : rel.updateRows assignment ids = .ok rel'

namespace HasSet

variable {p : Row → Bool} {ids : List Int64} (h : rel.HasSet assignment p ids rel')
  (horder : rel.IsInOrder)

include h in
/-- The rows to be changed are there. -/
theorem exists_row : ∀ id ∈ ids, ∃ r ∈ rel.rows, r.id = id := by
  intro id hid
  obtain ⟨r, hr, rfl⟩ := List.mem_map.1 (h.perm.mem_iff.1 hid)
  exact ⟨r, (List.mem_filter.1 hr).1, rfl⟩

include h horder

/-- A row is to be changed exactly if it meets the condition. -/
theorem mem_iff {r : Row} (hr : r ∈ rel.rows) : r.id ∈ ids ↔ p r = true := by
  rw [h.perm.mem_iff, mem_ids_iff horder.unique.ids (.refl _) hr]

/-- The rows afterwards are those before, with the ones to be changed replaced. -/
theorem perm_rows : rel'.rows.Perm
    (rel.rows.map fun r => if r.id ∈ ids then rel.changedRow assignment r else r) := by
  have hnodup : ids.Nodup :=
    h.perm.nodup_iff.2 ((List.filter_sublist.map Row.id).nodup horder.unique.ids)
  exact perm_of_updateRows hnodup h.exists_row horder.unique.ids h.updateRows_eq

/-- Whatever meets the predicate now was set, as all other rows are what they were. -/
theorem exists_old {r : Row} (hr : r ∈ rel'.rows) (hmeets : p r = true) :
    ∃ old ∈ rel.rows, old.id ∈ ids ∧ r = rel.changedRow assignment old := by
  obtain ⟨old, hold, rfl⟩ := List.mem_map.1 ((h.perm_rows horder).mem_iff.1 hr)
  by_cases hid : old.id ∈ ids
  · exact ⟨old, hold, hid, if_pos hid⟩
  · rw [if_neg hid] at hmeets
    exact absurd ((h.mem_iff horder hold).2 hmeets) hid

/-- No more rows meet the predicate now than did before. -/
theorem length_filter_le : (rel'.rows.filter p).length ≤ (rel.rows.filter p).length := by
  rw [← List.countP_eq_length_filter, ← List.countP_eq_length_filter,
    (h.perm_rows horder).countP_eq, List.countP_map]
  refine List.countP_mono_left fun r hr hmeets => ?_
  by_cases hid : r.id ∈ ids
  · exact (h.mem_iff horder hr).1 hid
  · simpa [hid] using hmeets

/-- **Rows that were set stay as they are when those that meet the predicate are set once more.** -/
theorem updateRows_again {again : List Int64}
    (hagain : again.Perm ((rel'.rows.filter p).map Row.id)) :
    rel'.updateRows assignment again = .ok rel' := by
  have horder' := horder.updateRows h.updateRows_eq
  refine horder'.updateRows_eq_self fun r hr hid => ?_
  have hmeets := (mem_ids_iff horder'.unique.ids (.refl _) hr).1 (hagain.mem_iff.1 hid)
  obtain ⟨old, -, hold, rfl⟩ := h.exists_old horder hr hmeets
  have hids : ∀ c, lastOf assignment .rowId = some c → ∃ id, idOfCell c = .ok id := fun _ hc =>
    exists_id_of_updateRows (List.ne_nil_of_mem hold) h.exists_row h.updateRows_eq hc
  rw [setCells_congr (emptied_updateRows h.updateRows_eq), setCells_eq_ok hids,
    changedRow_changedRow]

end HasSet

end Relation

/-- The ids of rows in the order in which an update sets them. -/
theorem ids_perm (rows : List Row) (p : Bool) :
    (if p then rows.map Row.id else (rows.map Row.id).mergeSort fun a b => a ≤ b).Perm
      (rows.map Row.id) := by
  split
  · exact .refl _
  · exact List.mergeSort_perm _ _

/-- An update of the one row that matches. -/
theorem set_eq_ok_of_singleton {q : Sql.Update} {assignment : Relation.Assignment} {r : Row}
    (hbind : rel.bind q.values = .ok assignment)
    (hmatching : matching rel q.condition = .ok ([r], arrangement))
    (hupdate : rel.updateRows assignment [r.id] = .ok rel') : rel.set q = .ok (rel', 1) := by
  have hids := List.perm_singleton.1 (ids_perm [r] (staysPut (assignment.map (·.1)) arrangement))
  unfold Relation.set
  rw [hbind, Except.ok_bind, hmatching, Except.ok_bind]
  dsimp only
  rw [hids, hupdate]
  rfl

/-- **An update that is carried out once more** leaves its table as it is and is about no more rows than
before, unless a row that it has set comes to be compared with a pattern that is too long. -/
theorem set_again {q : Sql.Update} (h : rel.IsInOrder) (hset : rel.set q = .ok (rel', n)) :
    (∃ k ≤ n, rel'.set q = .ok (rel', k)) ∨
      (∃ checks, checksOfClause [baseSource rel'] q.condition = .ok checks) ∧
        matching rel' q.condition = .error (.storage .patternTooLong) ∧
        rel'.set q = .error (.storage .patternTooLong) := by
  obtain ⟨assignment, hbind, hset⟩ := Except.bind_eq_ok_iff.1 hset
  obtain ⟨⟨rows, arrangement⟩, hmatching, hset⟩ := Except.bind_eq_ok_iff.1 hset
  obtain ⟨updated, hupdate, hset⟩ := Except.bind_eq_ok_iff.1 hset
  obtain ⟨rfl, rfl⟩ := Prod.mk.inj (Except.ok.inj hset)
  have hemptied := Relation.emptied_updateRows hupdate
  obtain ⟨checks, hchecks, hrows⟩ := perm_isMatched hmatching
  have hchecks' : checksOfClause [baseSource updated] q.condition = .ok checks := by
    rw [checksOfClause_congr hemptied, hchecks]
  unfold Relation.set
  rw [Relation.bind_congr hemptied, hbind, Except.ok_bind]
  cases hagain : matching updated q.condition with
  | error e =>
      obtain rfl := matching_eq_error hagain hchecks'
      exact .inr ⟨⟨checks, hchecks'⟩, rfl, rfl⟩
  | ok found =>
      obtain ⟨others, arrangement'⟩ := found
      obtain ⟨found, hfound, hothers⟩ := perm_isMatched hagain
      obtain rfl := Except.ok.inj (hfound.symm.trans hchecks')
      rw [isMatched_congr hemptied] at hothers
      -- Whatever matches now was set, and stays as it is when it is set once more.
      have hset : rel.HasSet assignment (isMatched rel found) _ updated :=
        ⟨(ids_perm rows _).trans (hrows.map _), hupdate⟩
      refine .inl ⟨others.length, ?_, ?_⟩
      · rw [hothers.length_eq, hrows.length_eq]
        exact hset.length_filter_le h
      · rw [Except.ok_bind]
        dsimp only
        rw [hset.updateRows_again h ((ids_perm others _).trans (hothers.map _))]
        rfl

/-! ## Stores -/

variable {s s' : Store}

/-- Whether matching rows with a condition comes to a pattern that is too long in some table. -/
def ComesToLongPattern (condition : Option Condition) : Prop :=
  ∃ rel checks, checksOfClause [baseSource rel] condition = .ok checks ∧
    matching rel condition = .error (.storage .patternTooLong)

/-- **An update that is carried out once more** changes nothing and is about no more rows, unless it
comes to a pattern that is too long. -/
theorem update_again {q : Sql.Update}
    (horder : ∀ rel, s.relation? q.table = some rel → rel.IsInOrder)
    (h : s.update q = .ok (s', n)) :
    (∃ k ≤ n, s'.update q = .ok (s', k)) ∨
      ComesToLongPattern q.condition ∧ s'.update q = .error (.storage .patternTooLong) := by
  rw [update_eq_revise] at h
  obtain ⟨⟨rel', count⟩, hrevised, hdone⟩ := Except.map_eq_ok_iff.1 h
  obtain ⟨rfl, rfl⟩ := Prod.mk.inj hdone
  obtain ⟨rel, hrel, hset, hagain⟩ := revise_replace (fun _ _ _ => emptied_set) hrevised
  rw [update_eq_revise, hagain]
  rcases set_again (horder rel hrel) hset with ⟨k, hk, hset⟩ | ⟨⟨checks, hchecks⟩, hlong, hset⟩
  · rw [hset]
    refine .inl ⟨k, hk, ?_⟩
    show Except.ok ((s.replace rel').replace rel', k) = _
    rw [replace_replace s (sameName_self _)]
  · rw [hset]
    exact .inr ⟨⟨rel', checks, hchecks, hlong⟩, rfl⟩

/-- **A deletion that is carried out once more** changes nothing. -/
theorem delete_again {q : Sql.Delete} (h : s.delete q = .ok (s', n)) :
    s'.delete q = .ok (s', 0) := by
  rw [delete_eq_revise] at h
  obtain ⟨⟨rel', count⟩, hrevised, hdone⟩ := Except.map_eq_ok_iff.1 h
  obtain ⟨rfl, rfl⟩ := Prod.mk.inj hdone
  obtain ⟨rel, -, hremove, hagain⟩ := revise_replace (fun _ _ _ => emptied_remove) hrevised
  rw [delete_eq_revise, hagain, remove_again hremove]
  show Except.ok ((s.replace rel').replace rel', 0) = _
  rw [replace_replace s (sameName_self _)]

end Tabula.Store
