import Tabula.Proofs.Database.Typed
import Tabula.Proofs.Query.Read
import Tabula.Proofs.Query.Scope

/-!
# Values of their columns' types

What a read request gives from a typed database. Main statement: over whole runs of a database that
was opened in an empty store, every value that is read is one of the type of the column that it is
read from, and is null only where the column is nullable and not the primary key
(`admits_of_run`). A column of floats with a default that is not finite is the exception: where the
default was filled in, it shows the word that the default is written as (`read_infinite_default`).
-/

namespace Tabula

open Store (Choice Place Row Source cellAt combinations locate sameName)

/-! ## Sources of columns -/

/-- The table behind a source name of a scope is that of an origin with this name. -/
theorem Chains.exists_origin {db : Database} {base : Origin} {joins : JoinSpec}
    {joined : List Sql.JoinStep} {aliases : Assoc Origin} {origins : List Origin}
    (h : Chains db base joins joined aliases origins) (hbase : base.name = base.table.name)
    {source : String} {t : Table}
    (ht : Scope.table? ⟨base.table, tablesOf aliases⟩ source = some t) :
    ∃ o ∈ base :: origins, o.table = t ∧ o.name = source := by
  unfold Scope.table? at ht
  dsimp only at ht
  split at ht
  · next hsource => exact ⟨base, List.mem_cons_self, Option.some.inj ht, hbase.trans hsource.symm⟩
  · rw [find?_tablesOf] at ht
    obtain ⟨o, ho, rfl⟩ := Option.map_eq_some_iff.1 ht
    obtain ⟨hmem, hname, -⟩ := h.exists_last ho
    exact ⟨o, List.mem_cons_of_mem _ hmem, rfl, hname⟩

/-- **A located column shows what its table holds.** For a combination of rows of the sources, the
place of a column of an origin shows a cell that the column holds, also if other sources go by the
name of the origin. -/
theorem Origin.holds_cellAt {sources : List Source} {origins : List Origin}
    (hisOf : List.Forall₂ Origin.IsOf sources origins) {o : Origin} (ho : o ∈ origins)
    (htypes : o.table.Types o.relation) {c : Column} (hc : c ∈ o.table.columns) {p : Place}
    (hp : locate sources ⟨o.name, c.name⟩ = .ok p) {rows : List Row}
    (hrows : rows ∈ combinations (sources.map Source.relation)) :
    c.Holds (cellAt (Choice.ofRows rows) p) := by
  obtain ⟨i, hi⟩ := List.mem_iff_getElem?.1 ho
  obtain ⟨j, hj⟩ := List.mem_iff_getElem?.1 hc
  obtain ⟨s, hs, hsOf⟩ := hisOf.exists_getElem?_right hi
  have hcalled : s.isCalled o.name = true := by
    rw [hsOf.isCalled]
    exact Store.sameName_self o.name
  have hdeclared : s.relation.declared? c.name = some (o.relation.slotAt j) := by
    rw [hsOf.relation]
    exact htypes.declared?_eq hj
  -- The column is at its own position in the source of the origin, wherever else its name may be
  -- used.
  have hplace := Store.eq_place_of_locate hp hs hcalled hdeclared
  have hrelation : (sources.map Source.relation)[i]? = some o.relation := by
    rw [List.getElem?_map, hs, ← hsOf.relation]
    rfl
  have hchosen := Store.forall₂_of_mem_combinations hrows
  obtain ⟨r, hr, hmem⟩ := hchosen.exists_getElem?_left hrelation
  have hget : (Choice.ofRows rows)[i]? = some (some r) := by
    unfold Choice.ofRows
    rw [List.getElem?_map, hr]
    rfl
  have hsource : p.source = i := by
    rw [hplace]
    rfl
  have hcell : cellAt (Choice.ofRows rows) p = r.cellOf (o.relation.slotAt j) := by
    unfold cellAt
    rw [hsource, hget, hplace]
    rfl
  rw [hcell]
  exact htypes.holds_cellOf hmem hj

/-- Whether a field of a result stands under the label of a column, and shows a value that the column
of the catalog allows that is meant. -/
structure Scope.Admits (s : Scope) (out : OutputColumn) (field : ResultField) : Prop where
  label : field.label = out.label
  admits : ∃ c, s.Declares out.ref c ∧ out.type = c.type ∧ c.Admits field.value

namespace Database

variable {db : Database}

theorem select_of_fetch {plan : ReadPlan} {rows : List ResultRow}
    (h : (fetch plan db).1 = .ok rows) :
    ∃ cells, db.store.select plan.select = .ok cells ∧
      rows = cells.map (resultRow plan.columns) := by
  obtain ⟨cells, hcells, h⟩ := Except.bind_eq_ok_iff.1 h
  exact ⟨cells, hcells, (Except.ok.inj h).symm⟩

/-- A planned read gives the rows of its statement, in a transaction of its own or not. -/
theorem select_of_within {scoping : Scoping} {plan : ReadPlan} {rows : List ResultRow}
    (h : (within scoping (fetch plan) db).1 = .ok rows) :
    ∃ cells, db.store.select plan.select = .ok cells ∧
      rows = cells.map (resultRow plan.columns) := by
  obtain ⟨start, last, hfetch, -, hstore, -⟩ := within_eq_ok (Prod.ext h rfl)
  rw [← hstore]
  exact select_of_fetch (congrArg Prod.fst hfetch)

/-- The fields of a result row are those of the columns of its plan. -/
theorem forall₂_resultRow {R : OutputColumn → ResultField → Prop} {columns : List OutputColumn}
    {places : List Place} {choice : Choice}
    (h : List.Forall₂ (fun out p => R out ⟨out.label, (cellAt choice p).toValue out.type⟩)
      columns places) :
    List.Forall₂ R columns (resultRow columns (places.map (cellAt choice))) := by
  induction h with
  | nil => exact .nil
  | cons hfirst _ ih => exact .cons hfirst ih

/-- **Values that are read from a typed database are of their columns' types**, or words of their
defaults. -/
theorem IsTyped.admits_of_read (h : db.IsTyped) {scoping : Scoping} {r : ReadRequest}
    {rows : List ResultRow} (hread : (read scoping r db).1 = .ok rows) :
    ∃ t joins plan, db.catalog.table r.table = .ok t ∧
      Join.plan db.catalog t (r.joins.getD []) = .ok joins ∧ Plan.read db.catalog r = .ok plan ∧
      ∀ row ∈ rows, List.Forall₂ (Scope.Admits ⟨t, joins.aliases⟩) plan.columns row := by
  unfold read at hread
  split at hread
  · cases hread
  next plan hplan =>
  obtain ⟨t, limit, joins, columns, condition, terms, ht, -, hjoins, hcolumns, -, -, rfl⟩ :=
    Plan.read_eq_ok_iff.1 hplan
  refine ⟨t, joins, _, ht, hjoins, hplan, ?_⟩
  obtain ⟨cells, hselect, rfl⟩ := select_of_within hread
  obtain ⟨found, hfound⟩ := Store.exists_resolved_of_select hselect
  obtain ⟨rel, aliases, origins, joined, hchains, haliases, hjoined, hisOf, hstored⟩ :=
    exists_origins h.toFits (Catalog.table_eq_ok_iff.1 ht) hjoins
  -- The sources that the statement finds in the store are those of the origins.
  have hsources : List.Forall₂ Origin.IsOf found.sources (⟨t.name, t, rel⟩ :: origins) := by
    have hbase := (hstored _ List.mem_cons_self).relation
    have hreadable := Store.readable_of_relation? h.isSound hbase
    obtain rfl : found.base = rel := Except.ok.inj (found.base_eq.symm.trans hreadable)
    obtain rfl : found.joined = joined := Except.ok.inj (found.joined_eq.symm.trans hjoined)
    exact hisOf
  have hplaces : List.Forall₂ (fun out p => locate found.sources out.ref = .ok p) columns
      found.columns :=
    List.forall₂_map_left_iff.1 (Except.mapM_eq_ok_iff.1 found.columns_eq)
  intro row hrow
  obtain ⟨cellsOf, hcellsOf, rfl⟩ := List.mem_map.1 hrow
  obtain ⟨combination, hcombination, rfl⟩ := hfound cellsOf hcellsOf
  apply forall₂_resultRow
  have hdeclares := Scope.declares_of_selectList hcolumns
  refine ((List.forall₂_and_left _ _).2 ⟨hdeclares, hplaces⟩).imp ?_
  rintro out p ⟨⟨column, hdeclared, htype⟩, hp⟩
  refine ⟨rfl, column, hdeclared, htype, ?_⟩
  obtain ⟨table, htable, hmem, hname⟩ := hdeclared
  rw [haliases] at htable
  obtain ⟨o, ho, rfl, hsource⟩ := hchains.exists_origin rfl htable
  have htypes := h.types_of_relation? (hstored o ho).table (hstored o ho).relation
  have hp : locate found.sources ⟨o.name, column.name⟩ = .ok p := by
    rw [hsource, ← hname]
    exact hp
  dsimp only
  rw [htype]
  exact (Origin.holds_cellAt hsources ho htypes hmem hp hcombination).admits

/-- **Stored data keeps the types of the catalog over whole runs.** A database that is opened with
table creation in an empty store, and on which requests, batches and transactions are run, whether
they succeed or fail, holds in every column what the catalog allows, and every value that is read
from it is of the type of the column that it is read from, or the word of a default of that column that
is no finite float, and is null only if that column is nullable and not the primary key. -/
theorem admits_of_run {tables : List Table} {catalog : Catalog} {c : Configuration}
    {entropy : Entropy} {now : Int64} {store : Store} {start db : Database}
    (hbuild : Catalog.build tables = .ok catalog)
    (hdistinct : tables.Pairwise fun t u => sameName t.name u.name = false)
    (hcreates : c.createsTables = true)
    (hopen : openStore c catalog entropy (Store.empty now) = (.ok start, store))
    (hrun : Run start db) :
    db.IsTyped ∧ ∀ scoping r rows, (read scoping r db).1 = .ok rows →
      ∃ t joins plan, catalog.table r.table = .ok t ∧
        Join.plan catalog t (r.joins.getD []) = .ok joins ∧ Plan.read catalog r = .ok plan ∧
        ∀ row ∈ rows, List.Forall₂ (Scope.Admits ⟨t, joins.aliases⟩) plan.columns row := by
  have htyped : db.IsTyped := (isTyped_of_openStore hbuild hdistinct hcreates hopen).of_run hrun
  have hcatalog : db.catalog = catalog := by
    rw [hrun.steps.isBeside.catalog, (openStore_eq_ok hcreates hopen).1]
  refine ⟨htyped, ?_⟩
  intro scoping r rows hread
  rw [← hcatalog]
  exact htyped.admits_of_read hread

/-- A catalog with a table whose costs are whole numbers by default. -/
def items : Catalog where
  entries := [("Item", {
    name := "Item"
    columns := [
      { name := "id", type := .int, isKey := true },
      { name := "cost", type := .float, default? := some (.value (.int 5)) },
      { name := "gone", type := .bool, nullable := true }] })]

/-- A database that was opened with the catalog in an empty store. -/
def itemsOpened : Database where
  catalog := items
  store := { ((Store.empty 0).defineAll items.definitions).2 with lastId := 0 }
  keys := none

/-- Items, each with those that were not added before it. -/
def itemsInOrder : ReadRequest where
  table := "Item"
  columns := ["*", "later.gone"]
  joins := some [("later", [["id", "le", "Item", "id"]])]

/-- Rows are added by a batch that is undone, and then by a request of their own. -/
theorem admits_of_run_items :
    let create : CreateRequest := ⟨"Item", [[("gone", .bool true)], [("cost", .int 3)]]⟩
    let undone := batch .own [.create create, .delete ⟨"Nowhere", none⟩] itemsOpened
    let db := (execute .own (.create create) undone.2).2
    Catalog.build items.tables = .ok items ∧
      (openStore {} items ⟨0⟩ (Store.empty 0)).1 = .ok itemsOpened ∧
      Run itemsOpened db ∧ undone.1.isOk = false ∧ db.IsTyped ∧
      ∃ rows, (read .own itemsInOrder db).1 = .ok rows ∧ rows ≠ [] ∧
        ∃ t joins plan, items.table "Item" = .ok t ∧
          Join.plan items t (itemsInOrder.joins.getD []) = .ok joins ∧
          Plan.read items itemsInOrder = .ok plan ∧
          ∀ row ∈ rows, List.Forall₂ (Scope.Admits ⟨t, joins.aliases⟩) plan.columns row := by
  intro create undone db
  have hchecked : ((Store.empty 0).defineAll items.definitions).1.isOk = true ∧
      undone.1.isOk = false ∧
        (read .own itemsInOrder db).1.toOption.map List.isEmpty = some false := by decide +kernel
  have hcreated := hchecked.1
  have hundone := hchecked.2.1
  have hsome := hchecked.2.2
  have hbuild : Catalog.build items.tables = .ok items := by rfl
  have hopen : openStore {} items ⟨0⟩ (Store.empty 0)
      = (.ok itemsOpened, ((Store.empty 0).defineAll items.definitions).2) :=
    openStore_of_defineAll hcreated
  have hrun : Run itemsOpened db := .execute .own (.create create) (.batch .own _ (.refl _))
  obtain ⟨htyped, hrows⟩ := admits_of_run hbuild (List.pairwise_singleton _ _) rfl hopen hrun
  refine ⟨hbuild, by rw [hopen], hrun, hundone, htyped, ?_⟩
  cases hread : (read .own itemsInOrder db).1 with
  | error e =>
      rw [hread] at hsome
      cases hsome
  | ok rows =>
      rw [hread] at hsome
      refine ⟨rows, rfl, ?_, hrows .own itemsInOrder rows hread⟩
      rintro rfl
      cases hsome

/-- A catalog with a table whose pressures are infinite by default. -/
def gauges : Catalog where
  entries := [("Gauge", {
    name := "Gauge"
    columns := [
      { name := "id", type := .int, isKey := true },
      { name := "pressure", type := .float, nullable := true,
        default? := some (.value (.float (1 / 0))) }] })]

/-- A database that was opened with the catalog in an empty store. -/
def gaugesOpened : Database where
  catalog := gauges
  store := { ((Store.empty 0).defineAll gauges.definitions).2 with lastId := 0 }
  keys := none

set_option maxRecDepth 20000 in
/-- **An infinite default is read as a text.** The literal of an infinite float is a word to the store,
which fills it in as a text, and so a column of floats shows a text. -/
theorem read_infinite_default :
    let created := execute .own (.create ⟨"Gauge", [[("id", .int 1)]]⟩) gaugesOpened
    Catalog.build gauges.tables = .ok gauges ∧
      (openStore {} gauges ⟨0⟩ (Store.empty 0)).1 = .ok gaugesOpened ∧
      Run gaugesOpened created.2 ∧ created.1.isOk = true ∧
      (read .own { table := "Gauge", columns := ["*"] } created.2).1
        = .ok [[⟨"id", .int 1⟩, ⟨"pressure", .string "inf"⟩]] ∧
      ¬ ColumnType.float.Shows (.string "inf") := by
  intro created
  have hopened : (openStore {} gauges ⟨0⟩ (Store.empty 0)).1 = .ok gaugesOpened := by
    rw [openStore_of_defineAll (by decide +kernel)]
    rfl
  exact ⟨by rfl, hopened, .execute .own _ (.refl _), by decide +kernel, by rfl, nofun⟩

end Database

end Tabula
