import Tabula.Proofs.Database.Change
import Tabula.Proofs.Store.Unique

/-!
# Databases that keep rows apart

The definitions of a catalog give every table the row id and the indexes that keep its rows apart, if
no two of the names that they take are the same: an index whose name is in use would be passed over.
Main statements: the tables of a database that is opened in an empty store are kept apart
(`holds_isApart_of_openStore`), and changes keep them so (`Table.IsApart.change`). Whatever the names
of constraints are, rows are kept apart by the indexes that there are (`Table.IsKept.change`).
-/

namespace Tabula

open Sql (Definition)
open Store (Index Relation Row isIdColumn ownIndexes sameName)
open Store.Relation (Assignment)

/-- The name that a definition takes. -/
def Sql.Definition.name : Definition → String
  | .table name _ => name
  | .index name _ _ => name

/-- The names that the tables and constraints of a catalog take. -/
def Catalog.takenNames (c : Catalog) : List String :=
  c.tables.flatMap fun t => t.name :: t.unique.map UniqueConstraint.name

/-- The names of definitions are those that the catalog takes. -/
theorem Catalog.map_name_definitions (c : Catalog) :
    c.definitions.map Definition.name = c.takenNames := by
  unfold definitions takenNames
  rw [List.map_flatMap]
  congr 1
  funext t
  rw [Table.definitions, List.map_cons, List.map_map]
  rfl

/-- If the names that are taken differ, so do those of tables. -/
theorem Catalog.pairwise_tables {c : Catalog}
    (h : c.takenNames.Pairwise fun a b => sameName a b = false) :
    c.tables.Pairwise fun t u => sameName t.name u.name = false := by
  refine (List.pairwise_flatMap.1 h).2.imp ?_
  intro t u hdiffer
  exact hdiffer t.name List.mem_cons_self u.name List.mem_cons_self

namespace Store

variable {s s' : Store} {name : String} {i : Index} {d : Definition} {ds : List Definition}

/-! ## Indexes that definitions add -/

/-- Whether the stored table of a name has an index. -/
def IsIndexedBy (s : Store) (name : String) (i : Index) : Prop :=
  ∃ rel, s.relation? name = some rel ∧ i ∈ rel.indexes

namespace IsIndexedBy

/-- Definitions remove no index. -/
theorem define (h : s.IsIndexedBy name i) (hdefine : s.define d = .ok s') :
    s'.IsIndexedBy name i := by
  obtain ⟨rel, hrel, hi⟩ := h
  cases d with
  | table other columns =>
      rcases (define_table_cases hdefine).2 with ⟨-, rfl⟩ | ⟨-, -, rfl⟩
      · exact ⟨rel, hrel, hi⟩
      · refine ⟨rel, ?_, hi⟩
        rw [relation?_addTable, hrel]
        rfl
  | index other owner columns =>
      rcases define_index_cases hdefine with rfl | ⟨owned, j, d, howned, rfl⟩
      · exact ⟨rel, hrel, hi⟩
      · unfold IsIndexedBy
        rw [relation?_addIndex, hrel]
        -- The index is added to this table or to another one.
        by_cases hsame : sameName owned.name name = true
        · have hfound := hrel
          rw [← relation?_congr hsame, relation?_congr (sameName_of_relation? howned), howned]
            at hfound
          obtain rfl := Option.some.inj hfound
          rw [if_pos hsame]
          exact ⟨_, rfl, List.mem_cons_of_mem _ hi⟩
        · rw [if_neg hsame]
          exact ⟨rel, rfl, hi⟩

/-- An index stays with its table when more is defined. -/
theorem defineAll (h : s.IsIndexedBy name i) (hdefine : s.defineAll ds = (.ok (), s')) :
    s'.IsIndexedBy name i := by
  induction ds generalizing s with
  | nil =>
      obtain rfl := (Prod.mk.inj hdefine).2
      exact h
  | cons d ds ih =>
      obtain ⟨next, hnext, hrest⟩ := defineAll_cons hdefine
      exact ih (h.define hnext) hrest

end IsIndexedBy

/-- The indexes of columns have no names. -/
theorem name_of_mem_ownIndexes {columns : List Sql.ColumnDefinition} (hi : i ∈ ownIndexes columns) :
    i.name = none := by
  obtain ⟨⟨c, j⟩, -, hc⟩ := List.mem_filterMap.1 hi
  dsimp only at hc
  split at hc
  · rw [← Option.some.inj hc]
  · cases hc

/-- There is no index of a name if none of the tables has one. -/
theorem hasIndex_eq_false_iff : s.hasIndex name = false ↔
    ∀ rel ∈ s.relations, ∀ i ∈ rel.indexes, ∀ n, i.name = some n → sameName n name = false := by
  unfold hasIndex
  rw [List.any_eq_false]
  refine forall₂_congr fun rel _ => ?_
  rw [Bool.not_eq_true, List.any_eq_false]
  refine forall₂_congr fun i _ => ?_
  cases i.name <;> simp

/-- No index has a name that no definition takes. -/
theorem hasIndex_of_define (hfree : s.hasIndex name = false) (hname : sameName d.name name = false)
    (hdefine : s.define d = .ok s') : s'.hasIndex name = false := by
  rw [hasIndex_eq_false_iff] at hfree ⊢
  cases d with
  | table other columns =>
      rcases (define_table_cases hdefine).2 with ⟨-, rfl⟩ | ⟨-, -, rfl⟩
      · exact hfree
      · intro rel hrel i hi n hn
        rcases List.mem_append.1 hrel with hrel | hrel
        · exact hfree rel hrel i hi n hn
        · -- The indexes that a table comes with have no names.
          obtain rfl := List.mem_singleton.1 hrel
          have hnone := name_of_mem_ownIndexes (List.mem_reverse.1 hi)
          rw [hnone] at hn
          cases hn
  | index other owner columns =>
      obtain ⟨owned, howned, ⟨-, rfl⟩ | ⟨-, rfl⟩⟩ := define_index_eq_ok hdefine
      · exact hfree
      · intro rel hrel i hi n hn
        obtain ⟨old, hold, hreplaced⟩ := List.mem_map.1 hrel
        split at hreplaced
        · subst hreplaced
          rcases List.mem_cons.1 hi with rfl | hi
          · obtain rfl := Option.some.inj hn
            exact hname
          · exact hfree owned (List.mem_of_find?_eq_some howned) i hi n hn
        · subst hreplaced
          exact hfree old hold i hi n hn

/-- Definitions of other names bring no index of that name. -/
theorem hasIndex_of_defineAll (hfree : s.hasIndex name = false)
    (hnames : ∀ d ∈ ds, sameName d.name name = false) (hdefine : s.defineAll ds = (.ok (), s')) :
    s'.hasIndex name = false := by
  induction ds generalizing s with
  | nil =>
      obtain rfl := (Prod.mk.inj hdefine).2
      exact hfree
  | cons d ds ih =>
      obtain ⟨hname, hnames⟩ := List.forall_mem_cons.1 hnames
      obtain ⟨next, hnext, hrest⟩ := defineAll_cons hdefine
      exact ih (hasIndex_of_define hfree hname hnext) hnames hrest

/-- A definition stands after others that do not have its name if no name is taken twice. -/
theorem exists_append_of_mem
    (hnames : (ds.map Definition.name).Pairwise fun a b => sameName a b = false) (hmem : d ∈ ds) :
    ∃ before after, ds = before ++ d :: after ∧ ∀ e ∈ before, sameName e.name d.name = false := by
  obtain ⟨before, after, rfl⟩ := List.append_of_mem hmem
  have happart := (List.pairwise_append.1 (List.pairwise_map.1 hnames)).2.2
  exact ⟨before, after, rfl, fun e he => happart e he d List.mem_cons_self⟩

/-- **The definition of a table gives it the indexes of its columns**, if the name is free and is
not taken twice. -/
theorem isIndexedBy_of_table {columns : List Sql.ColumnDefinition}
    (hdefine : s.defineAll ds = (.ok (), s'))
    (hnames : (ds.map Definition.name).Pairwise fun a b => sameName a b = false)
    (hmem : .table name columns ∈ ds) (hfree : s.relation? name = none)
    (hi : i ∈ ownIndexes columns) : s'.IsIndexedBy name i := by
  obtain ⟨before, after, rfl, hbefore⟩ := exists_append_of_mem hnames hmem
  obtain ⟨first, hfirst, hrest⟩ := defineAll_append hdefine
  obtain ⟨next, hnext, hrest⟩ := defineAll_cons hrest
  have hnone : first.relation? name = none := by
    apply relation?_of_defineAll hfirst hfree
    exact fun other columns hmem => hbefore _ hmem
  refine IsIndexedBy.defineAll ?_ hrest
  rcases (define_table_cases hnext).2 with ⟨hused, -⟩ | ⟨-, -, rfl⟩
  · rw [hnone] at hused
    cases hused
  · refine ⟨relationOf name columns, ?_, List.mem_reverse.2 hi⟩
    rw [relation?_addTable, hnone, sameName_self]
    rfl

/-- **The definition of an index adds it to its table**, if the name is free and is not taken
twice. -/
theorem isIndexedBy_of_index {owner : String} {columns : List String}
    (hdefine : s.defineAll ds = (.ok (), s'))
    (hnames : (ds.map Definition.name).Pairwise fun a b => sameName a b = false)
    (hmem : .index name owner columns ∈ ds) (hfree : s.hasIndex name = false)
    {rel : Relation} (hrel : s'.relation? owner = some rel) :
    s'.IsIndexedBy owner ⟨some name, columns.map (indexTerm rel)⟩ := by
  obtain ⟨before, after, rfl, hbefore⟩ := exists_append_of_mem hnames hmem
  obtain ⟨first, hfirst, hrest⟩ := defineAll_append hdefine
  obtain ⟨next, hnext, hafter⟩ := defineAll_cons hrest
  have hunused := hasIndex_of_defineAll hfree hbefore hfirst
  obtain ⟨old, hold, ⟨hused, -⟩ | ⟨-, hadded⟩⟩ := define_index_eq_ok hnext
  · rw [hunused] at hused
    cases hused
  · -- The table has the columns that it had when the index was added.
    obtain ⟨found, hfound, -, hfields⟩ := (extends_defineAll hrest).kept owner old hold
    obtain rfl : found = rel := Option.some.inj (hfound.symm.trans hrel)
    have hterm : indexTerm old = indexTerm found := by
      unfold indexTerm Relation.position?
      rw [hfields]
    rw [hterm] at hadded
    refine IsIndexedBy.defineAll ?_ hafter
    rw [hadded]
    unfold IsIndexedBy
    rw [relation?_addIndex, hold, sameName_of_relation? hold]
    exact ⟨_, rfl, List.mem_cons_self⟩

end Store

/-! ## Guards -/

namespace Table

variable {t : Table} {rel rel' : Relation} {names : List String}

/-- A column stands at its own position. -/
theorem IsLaidOutAs.position?_eq (h : t.IsLaidOutAs rel) {j : Nat} {c : Column}
    (hc : t.columns[j]? = some c) : rel.position? c.name = some j := by
  have hdeclared := h.declared?_eq hc
  unfold Store.Relation.declared? at hdeclared
  obtain ⟨i, hi, hslot⟩ := Option.map_eq_some_iff.1 hdeclared
  rw [hi, Store.Relation.slotAt_inj hslot]

/-- An index on a column is one on its position. -/
theorem IsLaidOutAs.indexTerm_eq (h : t.IsLaidOutAs rel) {j : Nat} {c : Column}
    (hc : t.columns[j]? = some c) : Store.indexTerm rel c.name = .column j := by
  unfold Store.indexTerm
  rw [h.position?_eq hc]

/-- **A key and a unique column are guarded** by the row id or an index of their own. -/
theorem isGuardedIn_column (h : t.IsLaidOutAs rel) (hconsistent : t.IsConsistent)
    (hindexes : ∀ i ∈ ownIndexes (t.columns.map Column.definition), i ∈ rel.indexes)
    {c : Column} (hc : c ∈ t.columns) (hmarked : (c.isKey || c.isUnique) = true) :
    t.IsGuardedIn rel [c.name] := by
  obtain ⟨j, hj⟩ := List.mem_iff_getElem?.1 hc
  refine ⟨[j], .cons ⟨c, hj, rfl⟩ .nil, ?_⟩
  -- A key of integers has no index, since it is the row id.
  by_cases hid : isIdColumn c.definition = true
  · exact .inr ⟨j, h.idField_eq hconsistent hj hid, rfl⟩
  · refine .inl ⟨⟨none, [.column j]⟩, hindexes _ ?_, rfl⟩
    have hdefinition : (c.definition, j) ∈ (t.columns.map Column.definition).zipIdx := by
      rw [List.mem_zipIdx_iff_getElem?, List.getElem?_map, hj]
      rfl
    refine List.mem_filterMap.2 ⟨_, hdefinition, ?_⟩
    have hkey : (c.isUnique || (c.isKey && !isIdColumn c.definition)) = true := by
      rw [Bool.not_eq_true] at hid
      rw [hid, Bool.not_false, Bool.and_true, Bool.or_comm]
      exact hmarked
    exact if_pos hkey

/-- **The columns of a constraint are guarded** by its index. -/
theorem isGuardedIn_constraint (h : t.IsLaidOutAs rel) {columns : List String} {name : Option String}
    (hcolumns : ∀ column ∈ columns, t.hasColumn column = true)
    (hindex : ⟨name, columns.map (Store.indexTerm rel)⟩ ∈ rel.indexes) :
    t.IsGuardedIn rel columns := by
  have hpositions : ∃ positions,
      List.Forall₂ (fun column j => ∃ c, t.columns[j]? = some c ∧ c.name = column) columns
        positions ∧ columns.map (Store.indexTerm rel) = positions.map .column := by
    clear hindex
    induction columns with
    | nil => exact ⟨[], .nil, rfl⟩
    | cons column columns ih =>
        obtain ⟨hcolumn, hcolumns⟩ := List.forall_mem_cons.1 hcolumns
        obtain ⟨positions, hpositions, hterms⟩ := ih hcolumns
        obtain ⟨c, hfound⟩ := Option.isSome_iff_exists.1 hcolumn
        obtain ⟨j, hj⟩ := List.mem_iff_getElem?.1 (List.mem_of_find?_eq_some hfound)
        have hname : c.name = column := by simpa using List.find?_some hfound
        refine ⟨j :: positions, .cons ⟨c, hj, hname⟩ hpositions, ?_⟩
        rw [List.map_cons, List.map_cons, ← hterms, ← hname, h.indexTerm_eq hj]
  obtain ⟨positions, hpositions, hterms⟩ := hpositions
  exact ⟨positions, hpositions, .inl ⟨_, hindex, hterms⟩⟩

/-- What guards the columns of a table does not depend on its rows. -/
theorem IsGuardedIn.of_emptied (h : t.IsGuardedIn rel names) (hemptied : rel'.emptied = rel.emptied) :
    t.IsGuardedIn rel' names := by
  have hindexes : rel'.emptied.indexes = rel.emptied.indexes := congrArg Relation.indexes hemptied
  have hidField : rel'.emptied.idField = rel.emptied.idField := congrArg Relation.idField hemptied
  unfold IsGuardedIn
  rw [show rel'.indexes = rel.indexes from hindexes, show rel'.idField = rel.idField from hidField]
  exact h

/-- Nor does what makes a row one of the table. -/
theorem IsRow.of_emptied {r : Row} (h : t.IsRow rel r) (hemptied : rel'.emptied = rel.emptied) :
    t.IsRow rel' r := by
  have hidField : rel'.emptied.idField = rel.emptied.idField := congrArg Relation.idField hemptied
  exact ⟨h.forms, fun j hj => h.shows j (hidField.symm.trans hj)⟩

/-- **Changes keep the rows of a table** well-formed and apart. -/
theorem IsKept.change (hconsistent : t.IsConsistent) (htypes : t.Types rel)
    (hchange : t.Change rel rel') (h : t.IsKept rel) : t.IsKept rel' := by
  have hlayout := htypes.toIsLaidOutAs
  have hemptied := hchange.emptied
  cases hchange with
  | insert haccepts hinsert =>
      refine ⟨h.unique.insert hinsert, ?_⟩
      obtain ⟨assignment, hbind, -, -, rfl⟩ := Store.Relation.insert_eq_ok_iff.1 hinsert
      intro r hr
      refine IsRow.of_emptied ?_ hemptied
      rcases List.mem_cons.1 ((Store.Relation.perm_place _ _).mem_iff.1 hr) with rfl | hr
      · exact hlayout.isRow_addedRow hconsistent haccepts (Store.Relation.binds_of_bind hbind)
      · exact h.rows r hr
  | update haccepts hbind hupdate =>
      refine ⟨h.unique.updateRows hupdate, ?_⟩
      intro r hr
      refine IsRow.of_emptied ?_ hemptied
      refine Store.Relation.forall_of_updateRows ?_ h.rows hupdate r hr
      exact fun r hr => hlayout.isRow_changedRow haccepts (Store.Relation.binds_of_bind hbind) hr
  | filter p =>
      refine ⟨h.unique.filter p, ?_⟩
      exact fun r hr => (h.rows r (List.mem_filter.1 hr).1).of_emptied hemptied

/-- **Changes keep a table apart.** -/
theorem IsApart.change (hconsistent : t.IsConsistent) (htypes : t.Types rel)
    (hchange : t.Change rel rel') (h : t.IsApart rel) : t.IsApart rel' :=
  ⟨h.toIsKept.change hconsistent htypes hchange,
    fun names hnames => (h.guards names hnames).of_emptied hchange.emptied⟩

end Table

/-! ## Opening -/

namespace Database

/-- The tables that are created in an empty store have no rows. -/
theorem rows_of_openStore {catalog : Catalog} {c : Configuration} {entropy : Entropy} {now : Int64}
    {store : Store} {db : Database} (hcreates : c.createsTables = true)
    (h : openStore c catalog entropy (Store.empty now) = (.ok db, store)) :
    ∀ rel ∈ db.store.relations, rel.rows = [] := by
  intro rel hrel
  obtain ⟨name, columns, -, hmade⟩ := isMadeBy_of_openStore hcreates h rel hrel
  exact hmade.rows

/-- **The rows of a database that is opened are kept** if its tables are created in an empty store. -/
theorem holds_isKept_of_openStore {catalog : Catalog} {c : Configuration} {entropy : Entropy}
    {now : Int64} {store : Store} {db : Database} (hcreates : c.createsTables = true)
    (h : openStore c catalog entropy (Store.empty now) = (.ok db, store)) (htyped : db.IsTyped) :
    db.Holds Table.IsKept := by
  intro t ht
  obtain ⟨rel, hrel, -⟩ := htyped.types t ht
  have hrows := rows_of_openStore hcreates h rel (List.mem_of_find?_eq_some hrel)
  exact ⟨rel, hrel, Table.isKept_of_rows_eq_nil hrows⟩

/-- **The tables of a database that is opened are kept apart** if they are created in an empty store
and no two of the names that the catalog takes are the same. -/
theorem holds_isApart_of_openStore {tables : List Table} {catalog : Catalog} {c : Configuration}
    {entropy : Entropy} {now : Int64} {store : Store} {db : Database}
    (hbuild : Catalog.build tables = .ok catalog)
    (hnames : catalog.takenNames.Pairwise fun a b => sameName a b = false)
    (hcreates : c.createsTables = true)
    (h : openStore c catalog entropy (Store.empty now) = (.ok db, store)) (htyped : db.IsTyped) :
    db.Holds Table.IsApart := by
  have hempty := rows_of_openStore hcreates h
  obtain ⟨rfl, hdefined, hstore⟩ := openStore_eq_ok hcreates h
  have hrelations : db.store.relations = store.relations := by rw [hstore]
  intro t ht
  obtain ⟨rel, hrel, htypes⟩ := htyped.types t ht
  have hrows : rel.rows = [] := hempty rel (List.mem_of_find?_eq_some hrel)
  refine ⟨rel, hrel, ?_⟩
  have hrel : store.relation? t.name = some rel := by
    unfold Store.relation? at hrel ⊢
    rwa [hrelations] at hrel
  have htables := (Catalog.mem_of_table? hbuild ht).2
  rw [← Catalog.map_name_definitions] at hnames
  have hindexed {i : Index} (hi : store.IsIndexedBy t.name i) : i ∈ rel.indexes := by
    obtain ⟨found, hfound, hi⟩ := hi
    obtain rfl : found = rel := Option.some.inj (hfound.symm.trans hrel)
    exact hi
  refine ⟨Table.isKept_of_rows_eq_nil hrows, ?_⟩
  intro names hkey
  rcases List.mem_append.1 hkey with hcolumn | hconstraint
  · obtain ⟨c, hc, rfl⟩ := List.mem_map.1 hcolumn
    obtain ⟨hc, hmarked⟩ := List.mem_filter.1 hc
    refine Table.isGuardedIn_column htypes.toIsLaidOutAs (htyped.isConsistent t ht) ?_ hc hmarked
    have hdefinition : .table t.name (t.columns.map Column.definition) ∈ db.catalog.definitions :=
      List.mem_flatMap.2 ⟨t, htables, List.mem_cons_self⟩
    exact fun i hi => hindexed (Store.isIndexedBy_of_table hdefined hnames hdefinition rfl hi)
  · obtain ⟨u, hu, rfl⟩ := List.mem_map.1 hconstraint
    have hcolumns := Table.hasColumn_of_check (Catalog.check_of_build hbuild t htables) hu
    have hdefinition : .index u.name t.name u.columns ∈ db.catalog.definitions :=
      List.mem_flatMap.2 ⟨t, htables, List.mem_cons_of_mem _ (List.mem_map_of_mem hu)⟩
    have hindex := Store.isIndexedBy_of_index hdefined hnames hdefinition rfl hrel
    exact Table.isGuardedIn_constraint htypes.toIsLaidOutAs hcolumns (hindexed hindex)

end Database

end Tabula
