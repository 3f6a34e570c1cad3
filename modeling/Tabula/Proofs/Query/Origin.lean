import Tabula.Proofs.Query.Meaning
import Tabula.Proofs.Store.Select

/-!
# Origins

The origin of a record is a source of the statement that a request becomes: the name it goes by
there, its table and where its rows are stored. Main statements: a column of an origin is located in
the source of the origin (`Stage.exists_place`), and for a choice of records its place shows what
the record of the origin holds in the column (`Stage.shows`).
-/

namespace Tabula

open Sql (JoinStep)
open Store (Choice Place Relation Row Source cellAt locate sameName)

/-- A source by its name, with its table and where its rows are stored. -/
structure Origin where
  name : String
  table : Table
  relation : Relation

namespace Origin

/-- Whether a table is stored under the names of its columns, which are not the same name for any
two. -/
structure IsSound (o : Origin) : Prop where
  fields : o.relation.fields.map Store.Field.name = o.table.columns.map Column.name
  distinct : o.table.columns.Pairwise fun c d => sameName c.name d.name = false

/-- Whether a source is the one of an origin. -/
structure IsOf (s : Source) (o : Origin) : Prop where
  relation : s.relation = o.relation
  isCalled : ∀ name, s.isCalled name = sameName o.name name

/-- Whether a record is one of an origin. -/
structure Suits (o : Origin) (r : Record) : Prop where
  table : r.table = o.table
  relation : r.relation = o.relation

/-- The column of a sound origin has a slot, which its records are looked up in. -/
theorem IsSound.exists_slot {o : Origin} (h : o.IsSound) {c : Column} (hc : c ∈ o.table.columns) :
    ∃ slot, o.relation.declared? c.name = some slot ∧ ∀ r, o.Suits r →
      r.datum c.name = ⟨o.relation.affinity slot, r.row.cellOf slot, slot = .rowId⟩ := by
  have hdistinct : o.relation.fields.Pairwise fun f g => sameName f.name g.name = false := by
    rw [← List.pairwise_map (f := Store.Field.name) (R := fun a b => sameName a b = false), h.fields,
      List.pairwise_map]
    exact h.distinct
  have hmem : c.name ∈ o.relation.fields.map Store.Field.name := by
    rw [h.fields]
    exact List.mem_map.2 ⟨c, hc, rfl⟩
  obtain ⟨f, hf, hname⟩ := List.mem_map.1 hmem
  obtain ⟨position, hposition⟩ : ∃ position,
      o.relation.fields.findIdx? (·.name = c.name) = some position := by
    rw [← Option.isSome_iff_exists, List.findIdx?_isSome, List.any_eq_true]
    exact ⟨f, hf, decide_eq_true hname⟩
  refine ⟨o.relation.slotAt position, Store.declared?_eq hdistinct hposition, ?_⟩
  intro r hr
  unfold Record.datum
  rw [hr.relation, hposition]

end Origin

/-! ## Stages -/

/-- The sources of a statement with their origins. -/
structure Stage (sources : List Source) (origins : List Origin) : Prop where
  isOf : List.Forall₂ Origin.IsOf sources origins
  distinct : origins.Pairwise fun o o' => sameName o.name o'.name = false
  isSound : ∀ o ∈ origins, o.IsSound

/-- The choice of the rows of some records. -/
def choiceOf (records : List Record) : Choice := Choice.ofRows (records.map Record.row)

/-- Whether a place shows for a choice of rows what is held somewhere. -/
structure Shows (choice : Choice) (p : Place) (d : Datum) : Prop where
  affinity : p.affinity = d.affinity
  cell : cellAt choice p = d.cell
  isRowId : decide (p.slot = .rowId) = d.isRowId

/-- A search passes over what is held at a place if it passes over what is held. -/
theorem Shows.passesOver {choice : Choice} {p : Place} {d : Datum} (h : Shows choice p d)
    (value : Cell) : p.passesOver choice value = d.isPassedOver value := by
  unfold Place.passesOver Datum.isPassedOver
  rw [h.isRowId, h.cell]

namespace Stage

variable {sources : List Source} {origins : List Origin} {records : List Record} {o : Origin}
  {c : Column}

theorem relations_eq (h : Stage sources origins) :
    sources.map Source.relation = origins.map Origin.relation := by
  have hisOf := h.isOf
  clear h
  induction hisOf with
  | nil => rfl
  | cons hfirst _ ih => rw [List.map_cons, List.map_cons, hfirst.relation, ih]

/-- Only the source of an origin goes by its name. -/
theorem eq_of_isCalled (h : Stage sources origins) {i : Nat} (ho : origins[i]? = some o) {j : Nat}
    {s : Source} (hs : sources[j]? = some s) (hcalled : s.isCalled o.name = true) : j = i := by
  obtain ⟨other, hother, hisOf⟩ := h.isOf.exists_getElem?_left hs
  rw [hisOf.isCalled] at hcalled
  obtain ⟨hi, rfl⟩ := List.getElem?_eq_some_iff.1 ho
  obtain ⟨hj, rfl⟩ := List.getElem?_eq_some_iff.1 hother
  rcases Nat.lt_trichotomy j i with hlt | heq | hgt
  · have hne := List.pairwise_iff_getElem.1 h.distinct j i hj hi hlt
    rw [hcalled] at hne
    cases hne
  · exact heq
  · have hne := List.pairwise_iff_getElem.1 h.distinct i j hi hj hgt
    rw [Store.sameName_comm, hcalled] at hne
    cases hne

/-- Where a column of an origin is. -/
theorem locate_eq (h : Stage sources origins) {i : Nat} (ho : origins[i]? = some o)
    (hc : c ∈ o.table.columns) :
    ∃ (s : Source) (slot : Store.Slot), sources[i]? = some s ∧ s.relation = o.relation ∧
      locate sources ⟨o.name, c.name⟩ = .ok (s.place i slot) ∧
      ∀ r, o.Suits r →
        r.datum c.name = ⟨o.relation.affinity slot, r.row.cellOf slot, slot = .rowId⟩ := by
  obtain ⟨s, hs, hisOf⟩ := h.isOf.exists_getElem?_right ho
  obtain ⟨slot, hslot, hdatum⟩ := (h.isSound o (List.mem_of_getElem? ho)).exists_slot hc
  refine ⟨s, slot, hs, hisOf.relation, ?_, hdatum⟩
  apply Store.locate_eq hs
  · rw [hisOf.isCalled]
    exact Store.sameName_self o.name
  · intro j other hother hcalled
    exact h.eq_of_isCalled ho hother hcalled
  · rw [hisOf.relation]
    exact hslot

/-- **A column of an origin is located** in the rows of its source. -/
theorem exists_place (h : Stage sources origins) (ho : o ∈ origins) (hc : c ∈ o.table.columns) :
    ∃ p, locate sources ⟨o.name, c.name⟩ = .ok p ∧ p.IsIn sources := by
  obtain ⟨i, hi⟩ := List.mem_iff_getElem?.1 ho
  obtain ⟨s, slot, hs, -, hlocate, -⟩ := h.locate_eq hi hc
  exact ⟨s.place i slot, hlocate, s, slot, hs, rfl⟩

/-- **A place shows what a record holds.** For a choice of records of the origins, the place of a
column shows what the record of its origin holds in the column. -/
theorem shows (h : Stage sources origins) (hsuits : List.Forall₂ Origin.Suits origins records)
    {r : Record} (hr : (o, r) ∈ origins.zip records) (hc : c ∈ o.table.columns) {p : Place}
    (hp : locate sources ⟨o.name, c.name⟩ = .ok p) :
    Shows (choiceOf records) p (r.datum c.name) := by
  obtain ⟨i, hi⟩ := List.mem_iff_getElem?.1 hr
  obtain ⟨ho, hr⟩ := List.getElem?_zip_eq_some.1 hi
  obtain ⟨s, slot, -, hrelation, hlocate, hdatum⟩ := h.locate_eq ho hc
  obtain rfl : s.place i slot = p := Except.ok.inj (hlocate.symm.trans hp)
  obtain ⟨r', hr', hsuit⟩ := hsuits.exists_getElem?_left ho
  obtain rfl : r = r' := Option.some.inj (hr.symm.trans hr')
  rw [hdatum r hsuit]
  refine ⟨?_, ?_, rfl⟩
  · show s.relation.affinity slot = _
    rw [hrelation]
  · have hget : (choiceOf records)[i]? = some (some r.row) := by
      unfold choiceOf Choice.ofRows
      rw [List.getElem?_map, List.getElem?_map, hr]
      rfl
    have hsource : (s.place i slot).source = i := rfl
    unfold cellAt
    rw [hsource, hget]
    rfl

end Stage

end Tabula
