import Tabula.Proofs.Query.Origin
import Tabula.Proofs.Store.CellOrder
import Tabula.Proofs.Store.Written

/-!
# Tables whose rows differ

A stored table is unique if no two of its rows have the same id or the same key at one of its indexes.
Main statements: a unique table stays unique when rows are added, set and removed
(`Relation.IsUnique.insert`, `Relation.IsUnique.updateRows`, `Relation.IsUnique.filter`), and in one
that is indexed as a table demands no two records share a primary key, a value of a unique column, or
the values of a constraint (`Table.IsApart.differ`).
-/

namespace Tabula

open Store (Index IndexTerm Relation Row)
open Store.Relation (Assignment checkRow key place sameKey slotAt)

namespace Cell

/-- A cell is the same as itself. -/
theorem same_self (c : Cell) : c.same c = true := by
  have hself : compare c c = .eq := Std.ReflCmp.compare_self
  unfold same
  rw [hself]
  rfl

/-- Cells are the same whichever comes first. -/
theorem same_comm (a b : Cell) : a.same b = b.same a := by
  have hswap : compare b a = (compare a b).swap := Std.OrientedCmp.eq_swap
  unfold same
  rw [hswap]
  cases compare a b <;> rfl

/-- A cell that is the same as null is null. -/
theorem isNull_of_same {a b : Cell} (h : a.same b = true) : a.isNull = b.isNull := by
  cases a <;> cases b <;> first | rfl | cases h

end Cell

namespace Store.Relation

variable {rel rel' : Relation} {terms : List IndexTerm} {indexes : List Index} {a b r : Row}
  {rows rows' others : List Row}

/-! ## Keys -/

/-- Whether two keys are the same and have no null in them. -/
def Meet (ka kb : List Cell) : Prop := List.Forall₂ (fun x y => x.isNull = false ∧ x.same y = true) ka kb

/-- Two rows have the same key if their keys meet. -/
theorem sameKey_iff : sameKey terms a b = true ↔ Meet (key terms a) (key terms b) := by
  unfold sameKey key Meet
  induction terms with
  | nil => simp
  | cons term terms ih =>
      simp only [List.map_cons, List.any_cons, List.zip_cons_cons, List.all_cons,
        List.forall₂_cons, ← ih]
      generalize List.any _ _ = anyNull
      generalize List.all _ _ = allSame
      cases term <;> cases Cell.isNull _ <;> cases Cell.same _ _ <;> cases anyNull <;>
        cases allSame <;> simp

/-- Rows have the same key whichever comes first. -/
theorem sameKey_comm (terms : List IndexTerm) (a b : Row) :
    sameKey terms a b = sameKey terms b a := by
  have hswap (a b : Row) (h : sameKey terms a b = true) : sameKey terms b a = true := by
    refine sameKey_iff.2 ((sameKey_iff.1 h).flip.imp ?_)
    rintro x y ⟨hnull, hsame⟩
    rw [Cell.same_comm] at hsame
    exact ⟨(Cell.isNull_of_same hsame).trans hnull, hsame⟩
  rw [Bool.eq_iff_iff]
  exact ⟨hswap a b, hswap b a⟩

/-! ## Unique rows -/

/-- Whether no two of some rows have the same id, or the same key at one of some indexes. -/
structure AreUnique (indexes : List Index) (rows : List Row) : Prop where
  ids : (rows.map Row.id).Nodup
  keys : ∀ i ∈ indexes, rows.Pairwise fun a b => sameKey i.terms a b = false

/-- Whether no two rows of a table have the same id, or the same key at one of its indexes. -/
def IsUnique (rel : Relation) : Prop := AreUnique rel.indexes rel.rows

namespace AreUnique

/-- Whether rows are unique does not depend on their order. -/
theorem perm (h : AreUnique indexes rows) (hperm : rows.Perm rows') : AreUnique indexes rows' := by
  refine ⟨(hperm.map _).nodup_iff.1 h.ids, fun i hi => ?_⟩
  exact hperm.pairwise (h.keys i hi) fun hab => (sameKey_comm _ _ _).trans hab

/-- Fewer rows are still unique. -/
theorem sublist (h : AreUnique indexes rows) (hsub : rows'.Sublist rows) :
    AreUnique indexes rows' :=
  ⟨(hsub.map _).nodup h.ids, fun i hi => (h.keys i hi).sublist hsub⟩

/-- A row that passes its checks can stand beside unique rows. -/
theorem cons (h : AreUnique rel.indexes others) (hcheck : rel.checkRow others r = .ok ()) :
    AreUnique rel.indexes (r :: others) := by
  constructor
  · refine List.nodup_cons.2 ⟨?_, h.ids⟩
    intro hmem
    obtain ⟨other, hother, hid⟩ := List.mem_map.1 hmem
    exact notMem_of_checkRow hcheck other hother hid
  · intro i hi
    refine List.pairwise_cons.2 ⟨?_, h.keys i hi⟩
    intro other hother
    -- The keys are checked after the columns that may not be null and the row id.
    obtain ⟨-, -, hcheck⟩ := Except.bind_eq_ok_iff.1 hcheck
    dsimp only at hcheck
    split at hcheck
    · cases hcheck
    · unfold checkKeys at hcheck
      split at hcheck
      · cases hcheck
      · next hnone =>
          have hkey := List.find?_eq_none.1 hnone i hi
          rw [Bool.not_eq_true, List.any_eq_false] at hkey
          simpa using hkey other hother

end AreUnique

namespace IsUnique

/-- **A table stays unique when a row is added.** -/
theorem insert {now id : Int64} {values : RowValues} (h : rel.IsUnique)
    (hinsert : rel.insert now values = .ok (rel', id)) : rel'.IsUnique := by
  obtain ⟨assignment, -, -, hcheck, rfl⟩ := insert_eq_ok_iff.1 hinsert
  exact (h.cons hcheck).perm (perm_place _ _).symm

/-- **A table stays unique when rows are set**, one after the other. -/
theorem updateRows {assignment : Assignment} {ids : List Int64} (h : rel.IsUnique)
    (hupdate : rel.updateRows assignment ids = .ok rel') : rel'.IsUnique := by
  induction ids generalizing rel with
  | nil =>
      obtain rfl := Except.ok.inj hupdate
      exact h
  | cons id ids ih =>
      rw [Relation.updateRows] at hupdate
      split at hupdate
      · exact ih h hupdate
      · next old _ =>
        obtain ⟨new, -, hupdate⟩ := Except.bind_eq_ok_iff.1 hupdate
        obtain ⟨⟨⟩, hcheck, hupdate⟩ := Except.bind_eq_ok_iff.1 hupdate
        -- The row is set beside the others, as if it were added to them.
        have hothers := AreUnique.sublist h (List.filter_sublist (p := fun r => r.id ≠ id))
        have hplaced : IsUnique
            { rel with rows := place new (rel.rows.filter fun r => r.id ≠ id) } :=
          (hothers.cons hcheck).perm (perm_place _ _).symm
        exact ih hplaced hupdate

/-- A table stays unique when rows are removed. -/
theorem filter (h : rel.IsUnique) (p : Row → Bool) :
    IsUnique { rel with rows := rel.rows.filter p } :=
  AreUnique.sublist h List.filter_sublist

end IsUnique

end Store.Relation

/-! ## Unique records -/

namespace Table

variable {t : Table} {rel rel' : Relation} {j : Nat} {c : Column} {names : List String}

/-- What a record says of a column is the cell at its slot. -/
theorem IsLaidOutAs.cell_datum (h : t.IsLaidOutAs rel) (hc : t.columns[j]? = some c) (r : Row) :
    (Record.datum ⟨t, rel, r⟩ c.name).cell = r.cellOf (rel.slotAt j) := by
  obtain ⟨hj, rfl⟩ := List.getElem?_eq_some_iff.1 hc
  have hposition : rel.fields.findIdx? (·.name = t.columns[j].name) = some j := by
    rw [h.fields, List.findIdx?_map]
    refine List.findIdx?_eq_some_iff_getElem.2 ⟨hj, decide_eq_true rfl, ?_⟩
    intro i hi hsame
    have hi' : i < t.columns.length := Nat.lt_trans hi hj
    have hname : t.columns[i].name = t.columns[j].name := of_decide_eq_true hsame
    have hij := h.eq_of_name_eq (List.getElem?_eq_getElem hi') hc hname
    omega
  unfold Record.datum
  dsimp only
  rw [hposition]

/-- Whether a stored table keeps its rows apart in some columns: at an index of them, or by the row id
if it is the one column. -/
def IsGuardedIn (t : Table) (rel : Relation) (names : List String) : Prop :=
  ∃ positions,
    List.Forall₂ (fun name j => ∃ c, t.columns[j]? = some c ∧ c.name = name) names positions ∧
      ((∃ i ∈ rel.indexes, i.terms = positions.map .column) ∨
        ∃ j, rel.idField = some j ∧ positions = [j])

/-- The combinations of columns in which the rows of a table differ. -/
def distinctive (t : Table) : List (List String) :=
  (t.columns.filter fun c => c.isKey || c.isUnique).map (fun c => [c.name])
    ++ t.unique.map UniqueConstraint.columns

/-- Whether the rows of a stored table are well-formed, and kept apart by its row id and indexes. -/
structure IsKept (t : Table) (rel : Relation) : Prop where
  unique : rel.IsUnique
  rows : ∀ r ∈ rel.rows, t.IsRow rel r

/-- Whether a stored table keeps its rows apart in all columns and combinations in which those of a
table differ, and has done so. -/
structure IsApart (t : Table) (rel : Relation) : Prop extends t.IsKept rel where
  guards : ∀ names ∈ t.distinctive, t.IsGuardedIn rel names

/-- The rows of a table without any are kept. -/
theorem isKept_of_rows_eq_nil (h : rel.rows = []) : t.IsKept rel := by
  constructor
  · unfold Store.Relation.IsUnique
    rw [h]
    exact ⟨.nil, fun _ _ => .nil⟩
  · simp [h]

/-- The records of a stored table. -/
def recordsOf (t : Table) (rel : Relation) : List Record := rel.rows.map fun r => ⟨t, rel, r⟩

/-- Whether two records have the same values in some columns, none of them null. -/
def Agree (t : Table) (names : List String) (a b : Record) : Prop :=
  ∀ name ∈ names, ∀ c, t.column? name = some c → a.value c = b.value c ∧ a.value c ≠ .null

/-- Whether no two of some records of a table have the same primary key, the same value in a unique
column, or the same values in the columns of a constraint, null apart. -/
structure Differ (t : Table) (records : List Record) : Prop where
  key : ∀ c, t.primaryKey? = some c → records.Pairwise fun a b => a.value c ≠ b.value c
  column : ∀ c ∈ t.columns, c.isUnique = true →
    records.Pairwise fun a b => a.value c = b.value c → a.value c = .null
  constraint : ∀ u ∈ t.unique, records.Pairwise fun a b => ¬ t.Agree u.columns a b

/-- A column is found by its name. -/
theorem IsLaidOutAs.column?_eq (h : t.IsLaidOutAs rel) (hc : c ∈ t.columns) :
    t.column? c.name = some c := by
  cases hfound : t.column? c.name with
  | none => simpa using List.find?_eq_none.1 hfound c hc
  | some d =>
      have hname : d.name = c.name := by simpa using List.find?_some hfound
      rw [h.eq_of_same_name (List.mem_of_find?_eq_some hfound) hc hname]

/-- Records of one value in a column have one cell in it. -/
theorem IsRow.cell_eq (h : t.IsLaidOutAs rel) (hc : t.columns[j]? = some c) {a b : Row}
    (ha : t.IsRow rel a) (hb : t.IsRow rel b)
    (hvalue : Record.value ⟨t, rel, a⟩ c = Record.value ⟨t, rel, b⟩ c) :
    a.cells[j]? = b.cells[j]? := by
  unfold Record.value at hvalue
  rw [h.cell_datum hc, h.cell_datum hc] at hvalue
  rw [ha.getElem?_eq hc, hb.getElem?_eq hc]
  exact congrArg some ((ha.forms_cellOf hc).eq_of_toValue_eq (hb.forms_cellOf hc) hvalue)

/-- Rows that agree in some columns have keys that meet in an index on these. -/
theorem meet_of_agree (h : t.IsLaidOutAs rel) {a b : Row} (ha : t.IsRow rel a)
    (hb : t.IsRow rel b) {positions : List Nat}
    (hpositions : List.Forall₂ (fun name j => ∃ c, t.columns[j]? = some c ∧ c.name = name) names
      positions) (hagree : t.Agree names ⟨t, rel, a⟩ ⟨t, rel, b⟩) :
    Store.Relation.Meet (key (positions.map .column) a) (key (positions.map .column) b) := by
  unfold key
  rw [List.map_map, List.map_map]
  induction hpositions with
  | nil => exact .nil
  | @cons name j names positions hfirst _ ih =>
      obtain ⟨c, hc, rfl⟩ := hfirst
      obtain ⟨hagreeC, hagree⟩ := List.forall_mem_cons.1 hagree
      have hcolumn := h.column?_eq (List.mem_of_getElem? hc)
      obtain ⟨hvalue, hnull⟩ := hagreeC c hcolumn
      have hcells := ha.cell_eq h hc hb hvalue
      refine .cons ⟨?_, ?_⟩ (ih hagree)
      · show (a.cells[j]?.getD .null).isNull = false
        rw [ha.getElem?_eq hc]
        -- A null cell would be read as null.
        unfold Record.value at hnull
        rw [h.cell_datum hc] at hnull
        cases hcell : a.cellOf (rel.slotAt j) with
        | null =>
            rw [hcell] at hnull
            exact absurd rfl hnull
        | _ => rfl
      · show (a.cells[j]?.getD .null).same (b.cells[j]?.getD .null) = true
        rw [hcells]
        exact Cell.same_self _

/-- **No two rows agree in columns in which they are kept apart.** -/
theorem IsApart.not_agree (h : t.IsApart rel) (hlayout : t.IsLaidOutAs rel)
    (hguard : t.IsGuardedIn rel names) :
    (t.recordsOf rel).Pairwise fun a b => ¬ t.Agree names a b := by
  obtain ⟨positions, hpositions, hguards⟩ := hguard
  refine List.pairwise_map.2 ?_
  rcases hguards with ⟨i, hi, hterms⟩ | ⟨j, hid, rfl⟩
  · refine (h.unique.keys i hi).imp_of_mem ?_
    intro a b ha hb hdiffer hagree
    have hmeet := meet_of_agree hlayout (h.rows a ha) (h.rows b hb) hpositions hagree
    rw [← hterms, ← Store.Relation.sameKey_iff, hdiffer] at hmeet
    cases hmeet
  · refine (List.pairwise_map.1 h.unique.ids).imp_of_mem ?_
    intro a b ha hb hdiffer hagree
    obtain ⟨name, rest, ⟨c, hc, rfl⟩, hrest, rfl⟩ := List.forall₂_cons_right_iff.1 hpositions
    have hcolumn := hlayout.column?_eq (List.mem_of_getElem? hc)
    obtain ⟨hvalue, -⟩ := hagree c.name List.mem_cons_self c hcolumn
    have hcells := (h.rows a ha).cell_eq hlayout hc (h.rows b hb) hvalue
    rw [(h.rows a ha).shows j hid, (h.rows b hb).shows j hid] at hcells
    exact hdiffer (Cell.int.inj (Option.some.inj hcells))

/-- **Rows that are kept apart differ.** -/
theorem IsApart.differ (h : t.IsApart rel) (htypes : t.Types rel) : t.Differ (t.recordsOf rel) := by
  have hlayout := htypes.toIsLaidOutAs
  have hsingle (c : Column) (hc : c ∈ t.columns) (hmarked : (c.isKey || c.isUnique) = true) :
      (t.recordsOf rel).Pairwise fun a b => ¬ t.Agree [c.name] a b := by
    refine h.not_agree hlayout (h.guards _ (List.mem_append_left _ ?_))
    exact List.mem_map.2 ⟨c, List.mem_filter.2 ⟨hc, hmarked⟩, rfl⟩
  have hagree {c : Column} (hc : c ∈ t.columns) {a b : Record} (hvalue : a.value c = b.value c)
      (hnull : a.value c ≠ .null) : t.Agree [c.name] a b := by
    intro name hname d hd
    obtain rfl := List.mem_singleton.1 hname
    obtain rfl : c = d := Option.some.inj ((hlayout.column?_eq hc).symm.trans hd)
    exact ⟨hvalue, hnull⟩
  refine ⟨?_, ?_, ?_⟩
  · intro c hkey
    have hc : c ∈ t.columns := List.mem_of_find?_eq_some hkey
    have hisKey : c.isKey = true := List.find?_some (p := Column.isKey) hkey
    refine (hsingle c hc (by simp [hisKey])).imp_of_mem ?_
    intro a b ha _ hdiffer hvalue
    refine hdiffer (hagree hc hvalue ?_)
    -- A primary key is never null.
    obtain ⟨r, hr, rfl⟩ := List.mem_map.1 ha
    obtain ⟨j, hj⟩ := List.mem_iff_getElem?.1 hc
    unfold Record.value
    rw [hlayout.cell_datum hj]
    intro hnull
    have hpresent := ((htypes.holds_cellOf hr hj).admits.present hnull).2
    rw [hisKey] at hpresent
    cases hpresent
  · intro c hc hunique
    refine (hsingle c hc (by simp [hunique])).imp ?_
    intro a b hdiffer hvalue
    by_contra hnull
    exact hdiffer (hagree hc hvalue hnull)
  · intro u hu
    exact h.not_agree hlayout (h.guards _ (List.mem_append_right _ (List.mem_map_of_mem hu)))

end Table

end Tabula
