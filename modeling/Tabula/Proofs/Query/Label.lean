import Tabula.Proofs.Query.Reference
import Tabula.Proofs.Query.Typed

/-!
# Labels of result columns

A result column stands under a label that is a reference to it, whether it was selected by that
reference or by one to all columns (`Scope.IsAddressable.isLabelled_of_select`). Main statement: result
columns with the same label show the same column with the same type, so that fields of a row with the
same label hold the same value, and looking up a label finds it
(`Database.columns_determined_by_label`).
-/

namespace Tabula

open Sql (ColumnRef)
open Store (Choice Place Source cellAt locate)

/-! ## Labels as references -/

namespace Scope

variable {s : Scope} {reference : String} {columns : List OutputColumn}

/-- Whether the label of a result column is a reference to the column that it shows. -/
def IsLabelled (s : Scope) (out : OutputColumn) : Prop :=
  ∃ c, s.resolveColumn out.label = .ok c ∧ out.ref = c.ref ∧ out.type = c.column.type

namespace IsAddressable

/-- The label of a column that a reference to all columns stands for names that column. -/
theorem resolveColumn_wildcardLabel (hs : s.IsAddressable) {found : Resolved}
    (hfound : s.resolve reference = .ok found) {c : Column} (hc : c ∈ found.table.columns) :
    s.resolveColumn (wildcardLabel found c) = .ok ⟨found.table, found.source, c⟩ := by
  obtain ⟨htable, -⟩ := table?_of_resolve hfound
  obtain ⟨source?, source, t, name, -, hsource, h⟩ := resolve_eq_ok_iff.1 hfound
  unfold wildcardLabel
  cases source? with
  | none =>
    -- Without a source the columns are those of the base table, labelled by their names.
    obtain ⟨rfl, rfl⟩ := Prod.mk.inj (Except.ok.inj hsource)
    obtain ⟨-, rfl⟩ | ⟨-, d, -, rfl⟩ := h <;> exact hs.resolveColumn_iff_spells.2 (.bare hc)
  | some named =>
    have hqualified : found.qualified = true := by
      obtain ⟨-, rfl⟩ | ⟨-, d, -, rfl⟩ := h <;> rfl
    rw [if_pos hqualified]
    exact hs.resolveColumn_of_mem htable hc

theorem isLabelled_of_select (hs : s.IsAddressable) (h : s.select reference = .ok columns) :
    ∀ out ∈ columns, s.IsLabelled out := by
  obtain ⟨found, hfound, h⟩ := Except.bind_eq_ok_iff.1 h
  intro out hout
  split at h
  · next c htarget =>
    obtain rfl := Except.ok.inj h
    obtain rfl := List.mem_singleton.1 hout
    refine ⟨⟨found.table, found.source, c⟩, ?_, rfl, rfl⟩
    unfold resolveColumn
    rw [hfound, Except.ok_bind, htarget]
    rfl
  · obtain rfl := Except.ok.inj h
    obtain ⟨c, hc, rfl⟩ := List.mem_map.1 hout
    exact ⟨_, hs.resolveColumn_wildcardLabel hfound hc, rfl, rfl⟩

/-- The label of every column of a column list is a reference to it. -/
theorem isLabelled_of_selectList (hs : s.IsAddressable) {references : List String}
    (h : s.selectList references = .ok columns) : ∀ out ∈ columns, s.IsLabelled out := by
  obtain ⟨lists, hlists, h⟩ := Except.bind_eq_ok_iff.1 h
  obtain rfl := Except.ok.inj h
  intro out hout
  obtain ⟨list, hlist, hout⟩ := List.mem_flatten.1 hout
  obtain ⟨reference, -, hselect⟩ := Except.exists_of_mem_mapM hlists hlist
  exact hs.isLabelled_of_select hselect out hout

end IsAddressable

/-- Columns with the same label are the same column of the same source. -/
theorem IsLabelled.eq_of_label_eq {out out' : OutputColumn} (h : s.IsLabelled out)
    (h' : s.IsLabelled out') (hlabel : out.label = out'.label) :
    out.ref = out'.ref ∧ out.type = out'.type := by
  obtain ⟨c, hc, href, htype⟩ := h
  obtain ⟨c', hc', href', htype'⟩ := h'
  rw [hlabel] at hc
  obtain rfl := Except.ok.inj (hc.symm.trans hc')
  exact ⟨href.trans href'.symm, htype.trans htype'.symm⟩

end Scope

/-! ## Rows -/

/-- A label is found in a row, and the value of a field that has it, if no other such field holds
another value. -/
theorem ResultRow.get?_eq_some {row : ResultRow} {field : ResultField} (hfield : field ∈ row)
    (hsame : ∀ f ∈ row, f.label = field.label → f.value = field.value) :
    row.get? field.label = some field.value := by
  obtain ⟨found, hfound⟩ : ∃ found, List.find? (fun f => f.label = field.label) row = some found :=
    Option.isSome_iff_exists.1 (List.find?_isSome.2 ⟨field, hfield, by simp⟩)
  have hlabel : found.label = field.label := by simpa using List.find?_some hfound
  unfold get?
  rw [hfound, Option.map_some, hsame found (List.mem_of_find?_eq_some hfound) hlabel]

namespace Database

/-- The field of a result column for a choice of rows. -/
def fieldOf (sources : List Source) (choice : Choice) (out : OutputColumn) : ResultField where
  label := out.label
  value :=
    match locate sources out.ref with
    | .ok p => (cellAt choice p).toValue out.type
    | .error _ => .null

/-- The value of a field is that of a column, whatever its label. -/
theorem value_fieldOf_eq {sources : List Source} {choice : Choice} {out out' : OutputColumn}
    (href : out.ref = out'.ref) (htype : out.type = out'.type) :
    (fieldOf sources choice out).value = (fieldOf sources choice out').value := by
  unfold fieldOf
  rw [href, htype]

/-- A row that is read has a field for each column of its plan. -/
theorem exists_choice_of_read {db : Database} {scoping : Scoping} {plan : ReadPlan} {r : ReadRequest}
    {rows : List ResultRow} (hplan : Plan.read db.catalog r = .ok plan)
    (hread : (read scoping r db).1 = .ok rows) {row : ResultRow} (hrow : row ∈ rows) :
    ∃ sources choice, row = plan.columns.map (fieldOf sources choice) := by
  unfold read at hread
  rw [hplan] at hread
  obtain ⟨cells, hselect, rfl⟩ := select_of_within hread
  obtain ⟨found, hfound⟩ := Store.exists_resolved_of_select hselect
  obtain ⟨cellsOf, hcellsOf, rfl⟩ := List.mem_map.1 hrow
  obtain ⟨combination, -, rfl⟩ := hfound cellsOf hcellsOf
  refine ⟨found.sources, Choice.ofRows combination, ?_⟩
  obtain ⟨t, limit, joins, columns, condition, terms, -, -, -, -, -, -, rfl⟩ :=
    Plan.read_eq_ok_iff.1 hplan
  have hplaces : List.Forall₂ (fun out p => locate found.sources out.ref = .ok p) columns
      found.columns :=
    List.forall₂_map_left_iff.1 (Except.mapM_eq_ok_iff.1 found.columns_eq)
  have hfields : columns.map (fieldOf found.sources (Choice.ofRows combination))
      = resultRow columns (found.columns.map (cellAt (Choice.ofRows combination))) := by
    rw [← List.forall₂_eq_eq_eq, List.forall₂_map_left_iff]
    refine forall₂_resultRow (hplaces.imp fun out p hp => ?_)
    unfold fieldOf
    rw [hp]
  exact hfields.symm

/-- **Labels never confuse columns.** In the plan of a read request in a built catalog, result columns
with the same label are the same column of the same source, with the same type, so that columns of
different sources, and different columns of one source, have different labels, however they were
referred to. A row that is read has the labels of the plan, in its order; fields with the same label
hold the same value, and it is this value that is found by the label. -/
theorem columns_determined_by_label {tables : List Table} {db : Database} {r : ReadRequest}
    {plan : ReadPlan} (hbuild : Catalog.build tables = .ok db.catalog)
    (hplan : Plan.read db.catalog r = .ok plan) :
    (∀ out ∈ plan.columns, ∀ out' ∈ plan.columns, out.label = out'.label →
      out.ref = out'.ref ∧ out.type = out'.type) ∧
    ∀ scoping rows, (read scoping r db).1 = .ok rows → ∀ row ∈ rows,
      row.map ResultField.label = plan.columns.map OutputColumn.label ∧
      (∀ f ∈ row, ∀ g ∈ row, f.label = g.label → f.value = g.value) ∧
      ∀ f ∈ row, row.get? f.label = some f.value := by
  have hsame : ∀ out ∈ plan.columns, ∀ out' ∈ plan.columns, out.label = out'.label →
      out.ref = out'.ref ∧ out.type = out'.type := by
    obtain ⟨base, limit, joins, columns, condition, terms, hbase, -, hjoins, hcolumns, -, -, rfl⟩ :=
      Plan.read_eq_ok_iff.1 hplan
    have hs : Scope.IsAddressable ⟨base, joins.aliases⟩ :=
      Scope.isAddressable_of_plan hbuild (Catalog.table_eq_ok_iff.1 hbase) hjoins
    intro out hout out' hout' hlabel
    exact (hs.isLabelled_of_selectList hcolumns out hout).eq_of_label_eq
      (hs.isLabelled_of_selectList hcolumns out' hout') hlabel
  refine ⟨hsame, fun scoping rows hread row hrow => ?_⟩
  obtain ⟨sources, choice, rfl⟩ := exists_choice_of_read hplan hread hrow
  have hvalues : ∀ f ∈ plan.columns.map (fieldOf sources choice),
      ∀ g ∈ plan.columns.map (fieldOf sources choice), f.label = g.label → f.value = g.value := by
    intro f hf g hg hlabel
    obtain ⟨out, hout, rfl⟩ := List.mem_map.1 hf
    obtain ⟨out', hout', rfl⟩ := List.mem_map.1 hg
    obtain ⟨href, htype⟩ := hsame out hout out' hout' hlabel
    exact value_fieldOf_eq href htype
  refine ⟨by rw [List.map_map]; rfl, hvalues, fun f hf => ?_⟩
  exact ResultRow.get?_eq_some hf fun g hg hlabel => hvalues g hg f hf hlabel

/-- Columns of shots and of a later one, most of them selected more than once. -/
def repeated : ReadRequest where
  table := "Shot"
  columns := ["*", "Shot.*", "later.name", "later.*", "name", "Shot.id"]
  joins := some [("later", [["id", "lt", "Shot", "id"]])]

/-- Two columns of `repeated` are the name of the later shot, and have the same label, by which that
name is found. -/
theorem columns_determined_by_label_repeated :
    let db := shots [⟨1, [.int 1, .text "A"]⟩, ⟨2, [.int 2, .text "B"]⟩]
    ∃ plan rows, Catalog.build db.catalog.tables = .ok db.catalog ∧
      Plan.read db.catalog repeated = .ok plan ∧ (read .own repeated db).1 = .ok rows ∧
      rows.length = 1 ∧ ∀ row ∈ rows,
        row.map ResultField.label = ["id", "name", "Shot.id", "Shot.name", "later.name", "later.id",
          "later.name", "name", "Shot.id"] ∧
        ∃ v, row.get? "later.name" = some v ∧ ∀ f ∈ row, f.label = "later.name" → f.value = v := by
  intro db
  have hbuild : Catalog.build db.catalog.tables = .ok db.catalog := rfl
  obtain ⟨plan, hplan, hlabels⟩ : ∃ plan, Plan.read db.catalog repeated = .ok plan ∧
      plan.columns.map OutputColumn.label = ["id", "name", "Shot.id", "Shot.name", "later.name",
        "later.id", "later.name", "name", "Shot.id"] := by
    simp only [← Except.toOption_eq_some_iff, ← Option.map_eq_some_iff]
    decide +kernel
  obtain ⟨rows, hrows, hone⟩ : ∃ rows, (read .own repeated db).1 = .ok rows ∧ rows.length = 1 := by
    simp only [← Except.toOption_eq_some_iff, ← Option.map_eq_some_iff]
    decide +kernel
  refine ⟨plan, rows, hbuild, hplan, hrows, hone, fun row hrow => ?_⟩
  obtain ⟨-, hread⟩ := columns_determined_by_label hbuild hplan
  obtain ⟨hplanned, hvalues, hget⟩ := hread .own rows hrows row hrow
  have hrowLabels := hplanned.trans hlabels
  obtain ⟨f, hf, hlabel⟩ : ∃ f ∈ row, f.label = "later.name" := by
    rw [← List.mem_map, hrowLabels]
    decide
  refine ⟨hrowLabels, f.value, hlabel ▸ hget f hf, fun g hg hg' => ?_⟩
  exact hvalues g hg f hf (hg'.trans hlabel.symm)

end Database

end Tabula
