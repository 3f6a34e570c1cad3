import Tabula.Proofs.Catalog.Build
import Tabula.Proofs.Database.Rollback

/-!
# Databases that fit their catalog

A database fits its catalog if every table of the catalog is stored under its name and with its
columns. Main statements: a database that is opened fits its catalog if the tables were created
(`fits_of_openStore`), and whatever is executed, it goes on fitting (`fits_execute`).
-/

namespace Tabula

open Sql (Definition ColumnDefinition)
open Store (Field Index Relation isReserved sameName)

/-- Whether a stored table is the one that a definition makes. -/
structure Table.IsStoredAs (t : Table) (rel : Relation) : Prop where
  unreserved : isReserved rel.name = false
  fields : rel.fields.map Field.name = t.columns.map Column.name
  distinct : t.columns.Pairwise fun c d => sameName c.name d.name = false

/-- Whether a store has the table of a definition. -/
def Store.Holds (s : Store) (t : Table) : Prop :=
  ∃ rel, s.relation? t.name = some rel ∧ t.IsStoredAs rel

/-- Whether the tables of the catalog of a database are stored. -/
structure Database.Fits (db : Database) : Prop where
  isSound : db.store.checkSound = .ok ()
  name_eq : ∀ name t, db.catalog.table? name = some t → t.name = name
  holds : ∀ name t, db.catalog.table? name = some t → db.store.Holds t

namespace Store

variable {s s' : Store} {name : String}

/-! ## Creating tables -/

/-- What the definition of a table does: nothing if its name is in use. -/
theorem define_table_cases {columns : List ColumnDefinition}
    (h : s.define (.table name columns) = .ok s') :
    isReserved name = false ∧ (((s.relation? name).isSome = true ∧ s' = s) ∨
      (s.relation? name = none ∧
        (columns.map ColumnDefinition.name).Pairwise (fun a b => sameName a b = false) ∧
        s' = s.addTable name (.table name columns) columns)) := by
  unfold define at h
  obtain ⟨-, -, h⟩ := Except.bind_eq_ok_iff.1 h
  obtain ⟨-, -, h⟩ := Except.bind_eq_ok_iff.1 h
  dsimp only at h
  split at h
  · cases h
  next hreserved =>
  refine ⟨by simpa using hreserved, ?_⟩
  split at h
  · next hused =>
    obtain ⟨-, -, h⟩ := Except.bind_eq_ok_iff.1 h
    exact .inl ⟨hused, (Except.ok.inj h).symm⟩
  next hfree =>
  split at h
  · cases h
  obtain ⟨⟨⟩, hcolumns, h⟩ := Except.bind_eq_ok_iff.1 h
  obtain ⟨-, -, h⟩ := Except.bind_eq_ok_iff.1 h
  have hdistinct := ((checkColumns_eq_ok_iff (Nat.zero_le _)).1 hcolumns).2.1
  exact .inr ⟨by simpa using hfree, hdistinct, (Except.ok.inj h).symm⟩

/-- What the definition of an index does: nothing if its name is in use by another. -/
theorem define_index_eq_ok {owner : String} {columns : List String}
    (h : s.define (.index name owner columns) = .ok s') :
    ∃ rel, s.relation? owner = some rel ∧ ((s.hasIndex name = true ∧ s' = s) ∨
      (s.hasIndex name = false ∧
        s' = s.addIndex rel ⟨some name, columns.map (indexTerm rel)⟩ name
          (.index name owner columns))) := by
  unfold define at h
  obtain ⟨-, -, h⟩ := Except.bind_eq_ok_iff.1 h
  obtain ⟨-, -, h⟩ := Except.bind_eq_ok_iff.1 h
  dsimp only at h
  split at h
  · next rel hrel =>
      refine ⟨rel, hrel, ?_⟩
      split at h
      · cases h
      split at h
      · cases h
      split at h
      · next hused => exact .inl ⟨hused, (Except.ok.inj h).symm⟩
      next hfree =>
      obtain ⟨-, -, h⟩ := Except.bind_eq_ok_iff.1 h
      obtain ⟨-, -, h⟩ := Except.bind_eq_ok_iff.1 h
      obtain ⟨-, -, h⟩ := Except.bind_eq_ok_iff.1 h
      exact .inr ⟨by simpa using hfree, (Except.ok.inj h).symm⟩
  · cases h

/-- Defining an index leaves the store alone or adds the index to its table. -/
theorem define_index_cases {owner : String} {columns : List String}
    (h : s.define (.index name owner columns) = .ok s') :
    s' = s ∨ ∃ rel i d, s.relation? owner = some rel ∧ s' = s.addIndex rel i name d := by
  obtain ⟨rel, hrel, ⟨-, hsame⟩ | ⟨-, hadded⟩⟩ := define_index_eq_ok h
  · exact .inl hsame
  · exact .inr ⟨rel, _, _, hrel, hadded⟩

/-- A new table is found by its name, unless there is one. -/
theorem relation?_addTable (s : Store) (name : String) (d : Definition)
    (columns : List ColumnDefinition) (other : String) :
    (s.addTable name d columns).relation? other
      = (s.relation? other).or
        (if sameName name other then some (relationOf name columns) else none) := by
  unfold addTable relation?
  dsimp only
  rw [List.find?_append, List.find?_singleton]
  rfl

/-! ## What definitions keep -/

/-- What definitions keep of a store: the tables that there are, but for new indexes. -/
structure Extends (before after : Store) : Prop where
  standing : after.standing = before.standing
  kept : ∀ name rel, before.relation? name = some rel →
    ∃ rel', after.relation? name = some rel' ∧ rel'.name = rel.name ∧ rel'.fields = rel.fields

theorem Extends.refl (s : Store) : Extends s s := ⟨rfl, fun _ rel h => ⟨rel, h, rfl, rfl⟩⟩

theorem Extends.trans {a b c : Store} (h : Extends a b) (h' : Extends b c) : Extends a c := by
  refine ⟨h'.standing.trans h.standing, ?_⟩
  intro name rel hrel
  obtain ⟨rel', hrel', hname, hfields⟩ := h.kept name rel hrel
  obtain ⟨rel'', hrel'', hname', hfields'⟩ := h'.kept name rel' hrel'
  exact ⟨rel'', hrel'', hname'.trans hname, hfields'.trans hfields⟩

/-- What extends a store holds the tables that it holds. -/
theorem Extends.holds (h : Extends s s') {t : Table} (hs : s.Holds t) : s'.Holds t := by
  obtain ⟨rel, hrel, hstored⟩ := hs
  obtain ⟨rel', hrel', hname, hfields⟩ := h.kept t.name rel hrel
  refine ⟨rel', hrel', ?_, ?_, hstored.distinct⟩
  · rw [hname]
    exact hstored.unreserved
  · rw [hfields]
    exact hstored.fields

/-- A store is extended by a table. -/
theorem extends_addTable (s : Store) (name : String) (d : Definition)
    (columns : List ColumnDefinition) : Extends s (s.addTable name d columns) := by
  refine ⟨rfl, ?_⟩
  intro other rel hrel
  refine ⟨rel, ?_, rfl, rfl⟩
  rw [relation?_addTable, hrel]
  rfl

/-- With a new index its table is found as it was, with the index in front. -/
theorem relation?_addIndex (s : Store) (rel : Relation) (i : Index) (name : String) (d : Definition)
    (other : String) :
    (s.addIndex rel i name d).relation? other
      = if sameName rel.name other
        then (s.relation? other).map fun _ => { rel with indexes := i :: rel.indexes }
        else s.relation? other :=
  relation?_replace s { rel with indexes := i :: rel.indexes } other

/-- A store is extended by an index. -/
theorem extends_addIndex {owner : String} {rel : Relation} (h : s.relation? owner = some rel)
    (i : Index) (name : String) (d : Definition) : Extends s (s.addIndex rel i name d) := by
  refine ⟨rfl, ?_⟩
  intro other found hfound
  rw [relation?_addIndex, hfound]
  split
  · next hsame =>
      rw [← relation?_congr hsame, relation?_congr (sameName_of_relation? h), h] at hfound
      obtain rfl := Option.some.inj hfound
      exact ⟨_, rfl, rfl, rfl⟩
  · exact ⟨found, rfl, rfl, rfl⟩

/-- A store is extended by a definition. -/
theorem extends_define {d : Definition} (h : s.define d = .ok s') : Extends s s' := by
  cases d with
  | table name columns =>
      rcases (define_table_cases h).2 with ⟨-, rfl⟩ | ⟨-, -, rfl⟩
      · exact .refl _
      · exact extends_addTable _ _ _ _
  | index name owner columns =>
      rcases define_index_cases h with rfl | ⟨rel, i, d, hrel, rfl⟩
      · exact .refl _
      · exact extends_addIndex hrel i name d

/-- A name that stands for no table goes on standing for none until a table has it. -/
theorem relation?_of_define {d : Definition} (h : s.define d = .ok s') {other : String}
    (hother : s.relation? other = none)
    (hname : ∀ name columns, d = .table name columns → sameName name other = false) :
    s'.relation? other = none := by
  cases d with
  | table name columns =>
      rcases (define_table_cases h).2 with ⟨-, rfl⟩ | ⟨-, -, rfl⟩
      · exact hother
      · rw [relation?_addTable, hother, hname name columns rfl]
        rfl
  | index name owner columns =>
      rcases define_index_cases h with rfl | ⟨rel, i, d, -, rfl⟩
      · exact hother
      · rw [relation?_addIndex, hother]
        split
        · rfl
        · rfl

/-- The definition of a table stores it, if its name is free. -/
theorem holds_of_define {t : Table} (hfree : s.relation? t.name = none)
    (h : s.define (.table t.name (t.columns.map Column.definition)) = .ok s') : s'.Holds t := by
  obtain ⟨hreserved, hcases⟩ := define_table_cases h
  rcases hcases with ⟨hused, -⟩ | ⟨-, hdistinct, rfl⟩
  · rw [hfree] at hused
    cases hused
  · refine ⟨relationOf t.name (t.columns.map Column.definition), ?_, hreserved, ?_, ?_⟩
    · rw [relation?_addTable, hfree, sameName_self]
      rfl
    · show ((t.columns.map Column.definition).map field).map Field.name = _
      rw [List.map_map, List.map_map]
      rfl
    · rw [List.map_map, List.pairwise_map] at hdistinct
      exact hdistinct

/-- Definitions are made one after the other. -/
theorem defineAll_cons {d : Definition} {ds : List Definition}
    (h : s.defineAll (d :: ds) = (.ok (), s')) :
    ∃ next, s.define d = .ok next ∧ next.defineAll ds = (.ok (), s') := by
  rw [defineAll] at h
  split at h
  · next next heq => exact ⟨next, heq, h⟩
  · cases (Prod.mk.inj h).1

/-- So are lists of definitions. -/
theorem defineAll_append {ds es : List Definition} (h : s.defineAll (ds ++ es) = (.ok (), s')) :
    ∃ next, s.defineAll ds = (.ok (), next) ∧ next.defineAll es = (.ok (), s') := by
  induction ds generalizing s with
  | nil => exact ⟨s, rfl, h⟩
  | cons d ds ih =>
      obtain ⟨first, hfirst, hrest⟩ := defineAll_cons h
      obtain ⟨next, hds, hes⟩ := ih hrest
      refine ⟨next, ?_, hes⟩
      rw [defineAll, hfirst]
      exact hds

/-- A store is extended by definitions. -/
theorem extends_defineAll {ds : List Definition} (h : s.defineAll ds = (.ok (), s')) :
    Extends s s' := by
  induction ds generalizing s with
  | nil =>
      obtain rfl := (Prod.mk.inj h).2
      exact .refl _
  | cons d ds ih =>
      obtain ⟨next, hnext, hrest⟩ := defineAll_cons h
      exact (extends_define hnext).trans (ih hrest)

/-- A name that no definition has is not found afterwards. -/
theorem relation?_of_defineAll {ds : List Definition} (h : s.defineAll ds = (.ok (), s'))
    {other : String} (hother : s.relation? other = none)
    (hname : ∀ name columns, .table name columns ∈ ds → sameName name other = false) :
    s'.relation? other = none := by
  induction ds generalizing s with
  | nil =>
      obtain rfl := (Prod.mk.inj h).2
      exact hother
  | cons d ds ih =>
      obtain ⟨next, hnext, hrest⟩ := defineAll_cons h
      apply ih hrest
      · apply relation?_of_define hnext hother
        rintro name columns rfl
        exact hname name columns List.mem_cons_self
      · exact fun name columns hmem => hname name columns (List.mem_cons_of_mem _ hmem)

/-- A table defines no other table. -/
theorem table_of_mem_definitions {t : Table} {name : String} {columns : List ColumnDefinition}
    (h : .table name columns ∈ t.definitions) : name = t.name := by
  rcases List.mem_cons.1 h with heq | hmem
  · exact (Definition.table.inj heq).1
  · obtain ⟨u, -, hu⟩ := List.mem_map.1 hmem
    cases hu

/-- **Defining tables stores them** if their names are free and no two of them the same name. -/
theorem holds_of_defineAll {tables : List Table}
    (hdistinct : tables.Pairwise fun t u => sameName t.name u.name = false)
    (hfree : ∀ t ∈ tables, s.relation? t.name = none)
    (h : s.defineAll (tables.flatMap Table.definitions) = (.ok (), s')) :
    ∀ t ∈ tables, s'.Holds t := by
  induction tables generalizing s with
  | nil => simp
  | cons t tables ih =>
      obtain ⟨hfirst, hdistinct⟩ := List.pairwise_cons.1 hdistinct
      rw [List.flatMap_cons] at h
      obtain ⟨next, hnext, hrest⟩ := defineAll_append h
      have hfree' : ∀ u ∈ tables, next.relation? u.name = none := by
        intro u hu
        apply relation?_of_defineAll hnext (hfree u (List.mem_cons_of_mem _ hu))
        intro name columns hmem
        rw [table_of_mem_definitions hmem]
        exact hfirst u hu
      intro u hu
      rcases List.mem_cons.1 hu with rfl | hu
      · obtain ⟨made, hmade, hindexes⟩ := defineAll_cons hnext
        have hholds := holds_of_define (hfree u List.mem_cons_self) hmade
        exact (extends_defineAll hrest).holds ((extends_defineAll hindexes).holds hholds)
      · exact ih hdistinct hfree' hrest u hu

end Store

namespace Database

/-- What is opened with table creation is the store with the tables of the catalog. -/
theorem openStore_eq_ok {c : Configuration} {catalog : Catalog} {entropy : Entropy}
    {store store' : Store} {db : Database} (hcreates : c.createsTables = true)
    (h : openStore c catalog entropy store = (.ok db, store')) :
    db.catalog = catalog ∧ store.defineAll catalog.definitions = (.ok (), store') ∧
      db.store = { store' with lastId := 0 } := by
  unfold openStore at h
  rw [if_pos hcreates] at h
  obtain ⟨hopened, hstore⟩ := Prod.mk.inj h
  obtain ⟨⟨⟩, hcreated, hopened⟩ := Except.bind_eq_ok_iff.1 hopened
  obtain ⟨keys, -, hopened⟩ := Except.bind_eq_ok_iff.1 hopened
  obtain rfl := Except.ok.inj hopened
  refine ⟨rfl, Prod.ext hcreated hstore, ?_⟩
  rw [← hstore]

/-- A catalog is opened in a store in which its tables can be created. -/
theorem openStore_of_defineAll {catalog : Catalog} {entropy : Entropy} {store : Store}
    (h : (store.defineAll catalog.definitions).1.isOk = true) :
    openStore {} catalog entropy store
      = (.ok {
          catalog
          store := { (store.defineAll catalog.definitions).2 with lastId := 0 }
          keys := none },
        (store.defineAll catalog.definitions).2) := by
  obtain ⟨⟨⟩, hcreated⟩ := Except.isOk_iff.1 h
  unfold openStore
  rw [if_pos rfl]
  dsimp only
  rw [hcreated]
  rfl

/-- **A database that is opened fits its catalog** if the tables are created in a store that has none
of them, and no two of them have the same name. -/
theorem fits_of_openStore {tables : List Table} {catalog : Catalog} {c : Configuration}
    {entropy : Entropy} {store store' : Store} {db : Database}
    (hbuild : Catalog.build tables = .ok catalog)
    (hdistinct : tables.Pairwise fun t u => sameName t.name u.name = false)
    (hsound : store.checkSound = .ok ()) (hfree : ∀ t ∈ tables, store.relation? t.name = none)
    (hcreates : c.createsTables = true)
    (h : openStore c catalog entropy store = (.ok db, store')) : db.Fits := by
  obtain ⟨rfl, hall, hstore⟩ := openStore_eq_ok hcreates h
  have hperm := Catalog.tables_perm_of_build hbuild
  have hholds := Store.holds_of_defineAll (hperm.symm.pairwise hdistinct fun h => by
    rw [Store.sameName_comm, h]) (fun t ht => hfree t (hperm.mem_iff.1 ht)) hall
  constructor
  · unfold Store.checkSound at hsound ⊢
    rw [hstore, (Store.extends_defineAll hall).standing]
    exact hsound
  · exact fun name t ht => (Catalog.mem_of_table? hbuild ht).1
  · intro name t ht
    rw [hstore]
    exact hholds t (Catalog.mem_of_table? hbuild ht).2

/-- A database goes on fitting its catalog in the frame of operations. -/
theorem Fits.of_frame {db db' : Database} (hfits : db.Fits) (h : Frame db db') : db'.Fits := by
  constructor
  · have hsound := hfits.isSound
    unfold Store.checkSound at hsound ⊢
    rw [h.store.standing]
    exact hsound
  · rw [h.catalog]
    exact hfits.name_eq
  · rw [h.catalog]
    intro name t ht
    obtain ⟨rel, hrel, hstored⟩ := hfits.holds name t ht
    have hemptied := h.store.emptied t.name
    rw [hrel] at hemptied
    obtain ⟨rel', hrel', hsame⟩ := Option.map_eq_some_iff.1 hemptied
    refine ⟨rel', hrel', ?_, ?_, hstored.distinct⟩
    · rw [show rel'.name = rel'.emptied.name from rfl, hsame]
      exact hstored.unreserved
    · rw [show rel'.fields = rel'.emptied.fields from rfl, hsame]
      exact hstored.fields

/-- **A database goes on fitting its catalog**, whatever is executed. -/
theorem fits_execute {db : Database} (h : db.Fits) (scoping : Scoping) (request : Request) :
    (execute scoping request db).2.Fits :=
  h.of_frame (isFramed_execute scoping request db)

end Database

end Tabula
