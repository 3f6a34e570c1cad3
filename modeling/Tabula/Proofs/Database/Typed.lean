import Mathlib.Data.List.Pairwise
import Tabula.Proofs.Database.Fits
import Tabula.Proofs.Database.Run
import Tabula.Proofs.Query.Plan
import Tabula.Proofs.Store.Typed

/-!
# Databases that keep the types of their catalog

A database is typed if every table of its catalog is stored as it is defined, and holds in each
column what the column's type and declaration allow. Main statements: a database that is opened with
table creation in an empty store is typed (`isTyped_of_openStore`), and what is typed stays typed in
every step (`IsTyped.step`).
-/

namespace Tabula

open Sql (Definition ColumnDefinition)
open Store (Relation sameName)

/-! ## Tables of definitions -/

namespace Store

variable {s s' : Store} {ds : List Definition}

/-- Whether a stored table is what a definition makes, but for the indexes that were added to it. -/
structure IsMadeAs (name : String) (columns : List ColumnDefinition) (rel : Relation) : Prop where
  name : rel.name = name
  fields : rel.fields = columns.map field
  idField : rel.idField = columns.findIdx? isIdColumn
  rows : rel.rows = []

/-- Whether every stored table is made by one of some definitions. -/
def IsMadeBy (s : Store) (ds : List Definition) : Prop :=
  ∀ rel ∈ s.relations, ∃ name columns, .table name columns ∈ ds ∧ IsMadeAs name columns rel

theorem IsMadeBy.define (h : s.IsMadeBy ds) {d : Definition} (hd : d ∈ ds)
    (hdefine : s.define d = .ok s') : s'.IsMadeBy ds := by
  cases d with
  | table name columns =>
      rcases (define_table_cases hdefine).2 with ⟨-, rfl⟩ | ⟨-, -, rfl⟩
      · exact h
      · intro rel hrel
        rcases List.mem_append.1 hrel with hrel | hrel
        · exact h rel hrel
        · obtain rfl := List.mem_singleton.1 hrel
          exact ⟨name, columns, hd, rfl, rfl, rfl, rfl⟩
  | index name owner columns =>
      rcases define_index_cases hdefine with rfl | ⟨rel, i, d, hrel, rfl⟩
      · exact h
      · intro made hmade
        obtain ⟨old, hold, hreplaced⟩ := List.mem_map.1 hmade
        split at hreplaced
        · obtain rfl := hreplaced
          obtain ⟨n, cs, hmem, hn, hfields, hidField, hrows⟩ := h rel (List.mem_of_find?_eq_some hrel)
          exact ⟨n, cs, hmem, hn, hfields, hidField, hrows⟩
        · obtain rfl := hreplaced
          exact h old hold

theorem IsMadeBy.defineAll (h : s.IsMadeBy ds) {es : List Definition} (hes : ∀ d ∈ es, d ∈ ds)
    (hdefine : s.defineAll es = (.ok (), s')) : s'.IsMadeBy ds := by
  induction es generalizing s with
  | nil =>
      obtain rfl := (Prod.mk.inj hdefine).2
      exact h
  | cons d es ih =>
      obtain ⟨hd, hes⟩ := List.forall_mem_cons.1 hes
      obtain ⟨next, hnext, hrest⟩ := defineAll_cons hdefine
      exact ih (h.define hd hnext) hes hrest

end Store

/-- A definition that makes a table of a catalog is that of one of its tables. -/
theorem Catalog.exists_of_mem_definitions {c : Catalog} {name : String}
    {columns : List ColumnDefinition} (h : .table name columns ∈ c.definitions) :
    ∃ t ∈ c.tables, name = t.name ∧ columns = t.columns.map Column.definition := by
  obtain ⟨t, ht, h⟩ := List.mem_flatMap.1 h
  refine ⟨t, ht, ?_⟩
  rcases List.mem_cons.1 h with heq | hmem
  · exact Definition.table.inj heq
  · obtain ⟨u, -, hu⟩ := List.mem_map.1 hmem
    cases hu

/-- In a catalog that is built of tables with different names, one name has one table. -/
theorem Catalog.eq_of_sameName_of_build {tables : List Table} {catalog : Catalog}
    (hbuild : Catalog.build tables = .ok catalog)
    (hdistinct : tables.Pairwise fun t u => sameName t.name u.name = false) :
    ∀ t ∈ catalog.tables, ∀ u ∈ catalog.tables, sameName t.name u.name = true → t = u := by
  intro t ht u hu hsame
  have hperm := Catalog.tables_perm_of_build hbuild
  have : Std.Symm fun t u : Table => sameName t.name u.name = false :=
    ⟨fun a b hab => by rw [Store.sameName_comm, hab]⟩
  by_contra hne
  have hdiffer := hdistinct.forall (hperm.mem_iff.1 ht) (hperm.mem_iff.1 hu) hne
  rw [hsame] at hdiffer
  cases hdiffer

namespace Database

/-! ## Typed databases -/

/-- Whether every table of the catalog of a database is stored as it is defined, and its rows hold
cells of their columns' types. -/
structure IsTyped (db : Database) : Prop extends db.Fits where
  isConsistent : ∀ t, db.catalog.table? t.name = some t → t.IsConsistent
  eq_of_sameName : ∀ t u, db.catalog.table? t.name = some t → db.catalog.table? u.name = some u →
    sameName t.name u.name = true → t = u
  types : ∀ t, db.catalog.table? t.name = some t →
    ∃ rel, db.store.relation? t.name = some rel ∧ t.Types rel

/-- All tables of a database that is opened come from definitions of its catalog if they are created
in an empty store. -/
theorem isMadeBy_of_openStore {catalog : Catalog} {c : Configuration} {entropy : Entropy}
    {now : Int64} {store : Store} {db : Database} (hcreates : c.createsTables = true)
    (h : openStore c catalog entropy (Store.empty now) = (.ok db, store)) :
    db.store.IsMadeBy db.catalog.definitions := by
  obtain ⟨rfl, hdefined, hstore⟩ := openStore_eq_ok hcreates h
  have hmade : store.IsMadeBy db.catalog.definitions := by
    refine Store.IsMadeBy.defineAll (s := Store.empty now) ?_ (fun d hd => hd) hdefined
    intro rel hrel
    cases hrel
  rw [hstore]
  exact hmade

/-- **A database that is opened is typed** if its tables are created in an empty store and no two of
them have the same name. -/
theorem isTyped_of_openStore {tables : List Table} {catalog : Catalog} {c : Configuration}
    {entropy : Entropy} {now : Int64} {store : Store} {db : Database}
    (hbuild : Catalog.build tables = .ok catalog)
    (hdistinct : tables.Pairwise fun t u => sameName t.name u.name = false)
    (hcreates : c.createsTables = true)
    (h : openStore c catalog entropy (Store.empty now) = (.ok db, store)) : db.IsTyped := by
  have hfits : db.Fits := fits_of_openStore hbuild hdistinct rfl (fun t _ => rfl) hcreates h
  have hmade := isMadeBy_of_openStore hcreates h
  obtain ⟨rfl, -, -⟩ := openStore_eq_ok hcreates h
  have hunique := Catalog.eq_of_sameName_of_build hbuild hdistinct
  have hmem : ∀ t, db.catalog.table? t.name = some t → t ∈ db.catalog.tables := fun t ht =>
    (Catalog.mem_of_table? hbuild ht).2
  refine ⟨hfits, ?_, ?_, ?_⟩
  · exact fun t ht => Catalog.isConsistent_of_build hbuild t (hmem t ht)
  · exact fun t u ht hu => hunique t (hmem t ht) u (hmem u hu)
  · intro t ht
    obtain ⟨rel, hrel, hstored⟩ := hfits.holds _ t ht
    refine ⟨rel, hrel, ?_⟩
    have hrelations : rel ∈ db.store.relations := List.mem_of_find?_eq_some hrel
    obtain ⟨name, columns, hdefinition, hname, hfields, hidField, hrows⟩ := hmade rel hrelations
    -- The definition that made the table is that of the one table with its name.
    obtain ⟨u, hu, rfl, rfl⟩ := Catalog.exists_of_mem_definitions hdefinition
    obtain rfl : u = t := by
      apply hunique u hu t (hmem t ht)
      rw [← hname]
      exact Store.sameName_of_relation? hrel
    refine ⟨⟨hstored.distinct, ?_, ?_⟩, ?_⟩
    · rw [hfields, List.map_map]
      rfl
    · rw [hidField, List.findIdx?_map]
      rfl
    · rw [hrows]
      simp

/-! ## Steps -/

namespace IsTyped

variable {db db' : Database}

theorem table?_eq (h : db.IsTyped) {name : String} {t : Table}
    (ht : db.catalog.table name = .ok t) : db.catalog.table? t.name = some t := by
  have ht := Catalog.table_eq_ok_iff.1 ht
  rw [h.name_eq name t ht, ht]

theorem types_of_relation? (h : db.IsTyped) {t : Table} (ht : db.catalog.table? t.name = some t)
    {rel : Relation} (hrel : db.store.relation? t.name = some rel) : t.Types rel := by
  obtain ⟨found, hfound, htypes⟩ := h.types t ht
  obtain rfl : found = rel := Option.some.inj (hfound.symm.trans hrel)
  exact htypes

/-- A database stays typed if a table is replaced by one that is typed and has the same columns. -/
theorem replace (h : db.IsTyped) {t : Table} (ht : db.catalog.table? t.name = some t)
    {rel rel' : Relation} (hrel : db.store.relation? t.name = some rel)
    (htypes : t.Types rel') (hemptied : rel'.emptied = rel.emptied) (lastId : Int64) :
    IsTyped { db with store := { db.store.replace rel' with lastId } } := by
  have hreplaced := Store.frame_replace hrel hemptied
  have hframe : Frame db { db with store := { db.store.replace rel' with lastId } } :=
    ⟨rfl, rfl, hreplaced.entries, hreplaced.now, hreplaced.standing, hreplaced.emptied⟩
  refine ⟨h.toFits.of_frame hframe, h.isConsistent, h.eq_of_sameName, ?_⟩
  intro u hu
  obtain ⟨found, hfound, hold⟩ := h.types u hu
  have hname : rel'.emptied.name = rel.emptied.name := congrArg Relation.name hemptied
  have hname : rel'.name = rel.name := hname
  show ∃ found, (db.store.replace rel').relation? u.name = some found ∧ u.Types found
  rw [Store.relation?_replace, hname]
  split
  · next hsame =>
      obtain rfl : t = u := by
        apply h.eq_of_sameName t u ht hu
        rw [← hsame, Store.sameName_congr (Store.sameName_of_relation? hrel)]
      rw [hfound]
      exact ⟨rel', rfl, htypes⟩
  · exact ⟨found, hfound, hold⟩

/-- **Every step keeps a database typed.** -/
theorem step (h : db.IsTyped) (hstep : Step db db') : db'.IsTyped := by
  -- A step replaces one stored table at most, by one whose columns are the same and whose cells are
  -- still of their types.
  cases hstep with
  | aside => exact ⟨⟨h.isSound, h.name_eq, h.holds⟩, h.isConsistent, h.eq_of_sameName, h.types⟩
  | insert htable hplan hinsert =>
      obtain ⟨hvalues, rfl⟩ := Plan.insert_eq_ok hplan
      obtain ⟨rel, rel', id, hrel, hadded, rfl⟩ := Store.insert_eq_ok hinsert
      have ht := h.table?_eq htable
      have htypes := (h.types_of_relation? ht hrel).insert (h.isConsistent _ ht)
        (Plan.exists_of_checkValues hvalues) hadded
      exact h.replace ht hrel htypes (Relation.emptied_insert hadded) id
  | update hplan hupdate =>
      obtain ⟨t, condition, htable, hvalues, -, rfl⟩ := Plan.update_eq_ok hplan
      obtain ⟨rel, assignment, rows, arrangement, ids, rel', hrel, hbind, -, -, hset, rfl, -⟩ :=
        Store.update_eq_ok hupdate
      have ht := h.table?_eq htable
      have htypes := h.types_of_relation? ht hrel
      have hsuits := htypes.suits_of_bind (Plan.exists_of_checkValues hvalues) hbind
      have hchanged := htypes.updateRows (h.isConsistent t ht) hsuits hset
      exact h.replace ht hrel hchanged (Relation.emptied_updateRows hset) db.store.lastId
  | delete hplan hdelete =>
      obtain ⟨t, condition, htable, -, rfl⟩ := Plan.delete_eq_ok hplan
      obtain ⟨rel, rows, arrangement, hrel, -, rfl, -⟩ := Store.delete_eq_ok hdelete
      have ht := h.table?_eq htable
      have htypes := h.types_of_relation? ht hrel
      have hkept : t.Types
          { rel with rows := rel.rows.filter fun r => !rows.any fun gone => gone.id = r.id } :=
        ⟨htypes.toIsLaidOutAs.of_emptied rfl, fun r hr => htypes.holds r (List.mem_filter.1 hr).1⟩
      exact h.replace ht hrel hkept rfl db.store.lastId

/-- A database that is typed stays typed over whole runs. -/
theorem of_run (h : db.IsTyped) (hrun : Run db db') : db'.IsTyped :=
  hrun.keeps (fun hstep h => h.step hstep) h

end IsTyped

end Database

end Tabula
