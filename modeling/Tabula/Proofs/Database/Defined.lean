import Tabula.Proofs.Database.Apart

/-!
# Catalogs that are created

A definition whose name is in use is passed over, and a name is in use whatever its case. A catalog
that is built takes no name twice, but names that differ in case only count as two. Main statement:
the definitions of a built catalog are carried out in an empty store, none of them passed over, if
and only if no two of its names differ in case only and each definition is within the limits of the
store; then all its tables and indexes are there (`Catalog.makes_iff_of_build`).
-/

namespace Tabula

open Sql (ColumnDefinition Definition Literal)
open Store (Index Relation indexTerm isReserved maxTerms sameName)

@[simp] theorem Sql.Definition.name_table (name : String) (columns : List ColumnDefinition) :
    (table name columns).name = name := rfl

@[simp] theorem Sql.Definition.name_index (name owner : String) (columns : List String) :
    (index name owner columns).name = name := rfl

/-- The count of columns that a definition names. -/
def Sql.Definition.width : Definition → Nat
  | .table _ columns => columns.length
  | .index _ _ columns => columns.length

/-- The literals that the columns of a definition default to. -/
def Sql.Definition.defaults : Definition → List Literal
  | .table _ columns => columns.filterMap ColumnDefinition.default?
  | .index .. => []

/-- Whether a definition keeps the limits of the store: its text and its defaults can be read, its name
is not kept for the store's own, and it has not too many columns. -/
structure Sql.Definition.IsWithinLimits (d : Definition) : Prop where
  isReadable : Store.checkReadable d.tokens = .ok ()
  unreserved : isReserved d.name = false
  width_le : d.width ≤ maxTerms
  readsDefaults : ∀ l ∈ d.defaults, l.isReadable = true

namespace Store

variable {s s' next : Store} {name : String} {d : Definition} {ds es : List Definition}

/-! ## Definitions in a store that can be written -/

/-- Whether a name can be given to a table or an index. -/
structure IsFree (s : Store) (name : String) : Prop where
  relation? : s.relation? name = none
  hasIndex : s.hasIndex name = false

/-- A store that can be written is a sound one. -/
theorem checkSound_of_writable (h : s.standing = .writable) : s.checkSound = .ok () := by
  rw [checkSound, h]
  rfl

theorem checkWritable_of_writable (h : s.standing = .writable) : s.checkWritable = .ok () := by
  rw [checkWritable, h]
  rfl

/-- A definition that is not passed over has a name that was free, and keeps the store's limits. -/
theorem isFree_of_define (h : s.define d = .ok next) (hchanges : next ≠ s) :
    s.IsFree d.name ∧ d.IsWithinLimits := by
  unfold define at h
  obtain ⟨⟨⟩, hread, h⟩ := Except.bind_eq_ok_iff.1 h
  obtain ⟨⟨⟩, -, h⟩ := Except.bind_eq_ok_iff.1 h
  -- A definition that finds its name taken by another of its kind is passed over, which changes
  -- nothing, so it is ruled out here; all other names in use make it fail.
  cases d with
  | table name columns =>
    dsimp only at h
    split at h
    · cases h
    next hreserved =>
    split at h
    · obtain ⟨-, -, h⟩ := Except.bind_eq_ok_iff.1 h
      exact absurd (Except.ok.inj h).symm hchanges
    next hrelation =>
    split at h
    · cases h
    next hindex =>
    obtain ⟨⟨⟩, hcolumns, h⟩ := Except.bind_eq_ok_iff.1 h
    obtain ⟨hcount, -, -, hdefaults⟩ := (checkColumns_eq_ok_iff (Nat.zero_le _)).1 hcolumns
    refine ⟨⟨by simpa using hrelation, by simpa using hindex⟩, hread, by simpa using hreserved,
      by simpa [Definition.width] using hcount, fun l hl => ?_⟩
    obtain ⟨c, hc, hl⟩ := List.mem_filterMap.1 hl
    exact checkDefault_eq_ok_iff.1 (hdefaults c hc) l hl
  | index name owner columns =>
    dsimp only at h
    split at h
    swap
    · cases h
    split at h
    · cases h
    next hreserved =>
    split at h
    · cases h
    next hrelation =>
    split at h
    · exact absurd (Except.ok.inj h).symm hchanges
    next hindex =>
    obtain ⟨⟨⟩, hcount, h⟩ := Except.bind_eq_ok_iff.1 h
    exact ⟨⟨by simpa using hrelation, by simpa using hindex⟩, hread, by simpa using hreserved,
      checkCount_eq_ok_iff.1 hcount, nofun⟩

/-- The definition of a table adds it, if its name is free and its columns have different names. -/
theorem define_table_of_isFree (hwritable : s.standing = .writable)
    {columns : List ColumnDefinition}
    (hlimits : (Definition.table name columns).IsWithinLimits) (hfree : s.IsFree name)
    (hcolumns : (columns.map ColumnDefinition.name).Pairwise fun a b => sameName a b = false) :
    s.define (.table name columns) = .ok (s.addTable name (.table name columns) columns) := by
  have hreserved : isReserved name = false := hlimits.unreserved
  have hfits : checkColumns name [] columns = .ok () := by
    refine (checkColumns_eq_ok_iff (Nat.zero_le _)).2 ⟨?_, hcolumns, by simp, fun c hc => ?_⟩
    · simpa [Definition.width] using hlimits.width_le
    · exact checkDefault_eq_ok_iff.2 fun l hl =>
        hlimits.readsDefaults l (List.mem_filterMap.2 ⟨c, hc, hl⟩)
  simp [define, hlimits.isReadable, checkSound_of_writable hwritable, hreserved, hfree.relation?,
    hfree.hasIndex, hfits, checkWritable_of_writable hwritable, Except.ok_bind]

/-- The definition of an index adds it, if its name is free and its table has no rows yet. -/
theorem define_index_of_isFree (hwritable : s.standing = .writable) {owner : String}
    {columns : List String} (hlimits : (Definition.index name owner columns).IsWithinLimits)
    (hfree : s.IsFree name) {rel : Relation} (hrel : s.relation? owner = some rel)
    (hrows : rel.rows = []) :
    s.define (.index name owner columns) = .ok (s.addIndex rel
      ⟨some name, columns.map (indexTerm rel)⟩ name (.index name owner columns)) := by
  have hreserved : isReserved name = false := hlimits.unreserved
  have hcount : checkCount columns.length maxTerms (.tooManyColumns name) = .ok () :=
    checkCount_eq_ok_iff.2 hlimits.width_le
  simp [define, hlimits.isReadable, checkSound_of_writable hwritable, hrel, hreserved,
    hfree.relation?, hfree.hasIndex, hcount, checkWritable_of_writable hwritable, hrows, checkIndex,
    Except.ok_bind]

/-! ## Names in use -/

/-- Whether a name is that of a table or of an index of a table. -/
def IsTaken (s : Store) (name : String) : Prop :=
  s.relation? name ≠ none ∨
    ∃ owner i n, s.IsIndexedBy owner i ∧ i.name = some n ∧ sameName n name = true

/-- A name that is free is not taken. -/
theorem IsFree.not_isTaken (h : s.IsFree name) : ¬ s.IsTaken name := by
  rintro (hrelation | ⟨owner, i, n, ⟨rel, hrel, hi⟩, hn, hsame⟩)
  · exact hrelation h.relation?
  · have hmem := List.mem_of_find?_eq_some hrel
    rw [hasIndex_eq_false_iff.1 h.hasIndex rel hmem i hi n hn] at hsame
    cases hsame

/-- A name that is taken is so in any case of its letters. -/
theorem IsTaken.congr {a b : String} (hsame : sameName a b = true) (h : s.IsTaken a) :
    s.IsTaken b := by
  rcases h with hrelation | ⟨owner, i, n, hindexed, hn, hna⟩
  · rw [relation?_congr hsame] at hrelation
    exact .inl hrelation
  · exact .inr ⟨owner, i, n, hindexed, hn, (sameName_congr hna b).trans hsame⟩

/-- Definitions free no name. -/
theorem IsTaken.define (h : s.IsTaken name) (hdefine : s.define d = .ok next) :
    next.IsTaken name := by
  rcases h with hrelation | ⟨owner, i, n, hindexed, hn, hsame⟩
  · obtain ⟨rel, hrel⟩ := Option.ne_none_iff_exists'.1 hrelation
    obtain ⟨rel', hrel', -⟩ := (extends_define hdefine).kept name rel hrel
    exact .inl (hrel' ▸ Option.some_ne_none rel')
  · exact .inr ⟨owner, i, n, hindexed.define hdefine, hn, hsame⟩

/-- A definition that is not passed over takes its name. -/
theorem isTaken_of_define (hdefine : s.define d = .ok next) (hchanges : next ≠ s) :
    next.IsTaken d.name := by
  cases d with
  | table name columns =>
    rcases (define_table_cases hdefine).2 with ⟨-, hsame⟩ | ⟨hnone, -, rfl⟩
    · exact absurd hsame hchanges
    · left
      rw [Definition.name_table, relation?_addTable, hnone, sameName_self]
      exact Option.some_ne_none _
  | index name owner columns =>
    obtain ⟨rel, hrel, ⟨-, hsame⟩ | ⟨-, rfl⟩⟩ := define_index_eq_ok hdefine
    · exact absurd hsame hchanges
    · refine .inr ⟨owner, ⟨some name, columns.map (indexTerm rel)⟩, name, ?_, rfl,
        sameName_self name⟩
      unfold IsIndexedBy
      rw [relation?_addIndex, hrel, sameName_of_relation? hrel]
      exact ⟨_, rfl, List.mem_cons_self⟩

/-! ## Definitions of which none is passed over -/

/-- Whether definitions are carried out in order and each of them changes the store. -/
inductive Makes : Store → List Definition → Store → Prop
  | nil {s : Store} : Makes s [] s
  | cons {s next s' : Store} {d : Definition} {ds : List Definition}
      (hdefine : s.define d = .ok next) (hchanges : next ≠ s) (hrest : Makes next ds s') :
      Makes s (d :: ds) s'

namespace Makes

/-- What makes definitions defines them all. -/
theorem defineAll (h : s.Makes ds s') : s.defineAll ds = (.ok (), s') := by
  induction h with
  | nil => rfl
  | cons hdefine _ _ ih =>
    rw [Store.defineAll, hdefine]
    exact ih

/-- Definitions are made one after the other. -/
theorem append (h : s.Makes ds next) (h' : next.Makes es s') : s.Makes (ds ++ es) s' := by
  induction h with
  | nil => exact h'
  | cons hdefine hchanges _ ih => exact .cons hdefine hchanges (ih h')

/-- Names that are in use are not those of definitions. -/
theorem sameName_of_isTaken (h : s.Makes ds s') (hname : s.IsTaken name) :
    ∀ d ∈ ds, sameName name d.name = false := by
  induction h with
  | nil => simp
  | cons hdefine hchanges _ ih =>
    refine List.forall_mem_cons.2 ⟨?_, ih (hname.define hdefine)⟩
    rw [← Bool.not_eq_true]
    intro hsame
    exact (isFree_of_define hdefine hchanges).1.not_isTaken (hname.congr hsame)

/-- Definitions that all change the store have different names. -/
theorem pairwise_name (h : s.Makes ds s') :
    (ds.map Definition.name).Pairwise fun a b => sameName a b = false := by
  induction h with
  | nil => exact .nil
  | cons hdefine hchanges hrest ih =>
    refine .cons ?_ ih
    rw [List.forall_mem_map]
    exact hrest.sameName_of_isTaken (isTaken_of_define hdefine hchanges)

/-- Definitions that are made are within the limits. -/
theorem isWithinLimits (h : s.Makes ds s') : ∀ d ∈ ds, d.IsWithinLimits := by
  induction h with
  | nil => simp
  | cons hdefine hchanges _ ih =>
    exact List.forall_mem_cons.2 ⟨(isFree_of_define hdefine hchanges).2, ih⟩

/-- The columns of tables that are added have different names. -/
theorem pairwise_columns (h : s.Makes ds s') {columns : List ColumnDefinition}
    (hmem : .table name columns ∈ ds) :
    (columns.map ColumnDefinition.name).Pairwise fun a b => sameName a b = false := by
  induction h with
  | nil => cases hmem
  | cons hdefine hchanges _ ih =>
    rcases List.mem_cons.1 hmem with rfl | hmem
    · rcases (define_table_cases hdefine).2 with ⟨-, hsame⟩ | ⟨-, hcolumns, -⟩
      · exact absurd hsame hchanges
      · exact hcolumns
    · exact ih hmem

/-- A name that is free stays so until a definition takes it. -/
theorem isFree (h : s.Makes ds s') (hfree : s.IsFree name)
    (hnames : ∀ d ∈ ds, sameName d.name name = false) : s'.IsFree name := by
  refine ⟨relation?_of_defineAll h.defineAll hfree.relation? ?_,
    hasIndex_of_defineAll hfree.hasIndex hnames h.defineAll⟩
  exact fun other columns hmem => hnames _ hmem

end Makes

/-! ## Stores without rows -/

/-- Whether a store can be written and has no rows. -/
structure IsBare (s : Store) : Prop where
  standing : s.standing = .writable
  rows : ∀ rel ∈ s.relations, rel.rows = []

namespace IsBare

/-- A store without rows is still so with one more table. -/
theorem addTable (h : s.IsBare) (d : Definition) (columns : List ColumnDefinition) :
    (s.addTable name d columns).IsBare := by
  refine ⟨h.standing, ?_⟩
  intro rel hrel
  rcases List.mem_append.1 hrel with hrel | hrel
  · exact h.rows rel hrel
  · obtain rfl := List.mem_singleton.1 hrel
    rfl

/-- So it is with one more index of a table without rows. -/
theorem addIndex (h : s.IsBare) {rel : Relation} (hrows : rel.rows = []) (i : Index)
    (d : Definition) : (s.addIndex rel i name d).IsBare := by
  refine ⟨h.standing, ?_⟩
  intro found hfound
  obtain ⟨old, hold, rfl⟩ := List.mem_map.1 hfound
  split
  · exact hrows
  · exact h.rows old hold

end IsBare

/-- A store is another one with one more table. -/
theorem addTable_ne (s : Store) (name : String) (d : Definition) (columns : List ColumnDefinition) :
    s.addTable name d columns ≠ s := by
  intro h
  have hlength := congrArg (fun s => s.relations.length) h
  simp [addTable] at hlength

/-- So it is with one more index. -/
theorem addIndex_ne (s : Store) (rel : Relation) (i : Index) (name : String) (d : Definition) :
    s.addIndex rel i name d ≠ s := by
  intro h
  have hlength := congrArg (fun s => s.entries.length) h
  simp [addIndex] at hlength

/-- **Indexes of a table are added** if their names are free and different. -/
theorem exists_makes_indexes {t : Table} {unique : List UniqueConstraint} (hbare : s.IsBare)
    (hrel : s.relation? t.name ≠ none)
    (hlimits : ∀ u ∈ unique, (Definition.index u.name t.name u.columns).IsWithinLimits)
    (hfree : ∀ u ∈ unique, s.IsFree u.name)
    (hnames : (unique.map UniqueConstraint.name).Pairwise fun a b => sameName a b = false) :
    ∃ s', s.Makes (unique.map fun u => .index u.name t.name u.columns) s' ∧ s'.IsBare := by
  induction unique generalizing s with
  | nil => exact ⟨s, .nil, hbare⟩
  | cons u unique ih =>
    obtain ⟨rel, hrel⟩ := Option.ne_none_iff_exists'.1 hrel
    obtain ⟨hfirst, hnames⟩ := List.pairwise_cons.1 hnames
    have hrows := hbare.rows rel (List.mem_of_find?_eq_some hrel)
    have hdefine := define_index_of_isFree hbare.standing (hlimits u List.mem_cons_self)
      (hfree u List.mem_cons_self) hrel hrows
    have hchanges := addIndex_ne s rel ⟨some u.name, u.columns.map (indexTerm rel)⟩ u.name
      (.index u.name t.name u.columns)
    obtain ⟨rel', hrel', -⟩ := (extends_define hdefine).kept t.name rel hrel
    have hfree' : ∀ v ∈ unique, IsFree _ v.name := fun v hv =>
      (Makes.cons hdefine hchanges .nil).isFree (hfree v (List.mem_cons_of_mem _ hv))
        (List.forall_mem_singleton.2 (hfirst v.name (List.mem_map_of_mem hv)))
    obtain ⟨s', hmakes, hbare'⟩ := ih (hbare.addIndex hrows _ _)
      (hrel' ▸ Option.some_ne_none rel') (fun v hv => hlimits v (List.mem_cons_of_mem _ hv)) hfree'
      hnames
    exact ⟨s', .cons hdefine hchanges hmakes, hbare'⟩

/-- **A table is added with its indexes** if the names that it takes are free and different, and so
are those of its columns. -/
theorem exists_makes_definitions {t : Table} (hbare : s.IsBare)
    (hlimits : ∀ d ∈ t.definitions, d.IsWithinLimits)
    (hfree : ∀ d ∈ t.definitions, s.IsFree d.name)
    (hnames : (t.definitions.map Definition.name).Pairwise fun a b => sameName a b = false)
    (hcolumns : t.columns.Pairwise fun c d => sameName c.name d.name = false) :
    ∃ s', s.Makes t.definitions s' ∧ s'.IsBare := by
  obtain ⟨hlimit, hlimits⟩ := List.forall_mem_cons.1 hlimits
  obtain ⟨hname, hfree⟩ := List.forall_mem_cons.1 hfree
  obtain ⟨hfirst, hnames⟩ := List.pairwise_cons.1 hnames
  rw [List.forall_mem_map] at hlimits hfree
  rw [List.map_map] at hnames hfirst
  have hdifferent : ((t.columns.map Column.definition).map ColumnDefinition.name).Pairwise
      fun a b => sameName a b = false := by
    rw [List.map_map, List.pairwise_map]
    exact hcolumns
  have hdefine := define_table_of_isFree hbare.standing hlimit hname hdifferent
  have hchanges := addTable_ne s t.name (.table t.name (t.columns.map Column.definition))
    (t.columns.map Column.definition)
  have hmade := Makes.cons hdefine hchanges .nil
  have hstored := holds_of_define hname.relation? hdefine
  obtain ⟨rel, hrel, -⟩ := hstored
  obtain ⟨s', hmakes, hbare'⟩ := exists_makes_indexes (t := t)
    (hbare.addTable _ _) (hrel ▸ Option.some_ne_none rel) hlimits
    (fun u hu => hmade.isFree (hfree u hu)
      (List.forall_mem_singleton.2 (hfirst u.name (List.mem_map_of_mem hu)))) hnames
  exact ⟨s', .cons hdefine hchanges hmakes, hbare'⟩

/-- **Tables are added with their indexes** if all names are free and different. -/
theorem exists_makes {tables : List Table} (hbare : s.IsBare)
    (hlimits : ∀ d ∈ tables.flatMap Table.definitions, d.IsWithinLimits)
    (hfree : ∀ d ∈ tables.flatMap Table.definitions, s.IsFree d.name)
    (hnames : ((tables.flatMap Table.definitions).map Definition.name).Pairwise
      fun a b => sameName a b = false)
    (hcolumns : ∀ t ∈ tables, t.columns.Pairwise fun c d => sameName c.name d.name = false) :
    ∃ s', s.Makes (tables.flatMap Table.definitions) s' := by
  induction tables generalizing s with
  | nil => exact ⟨s, .nil⟩
  | cons t tables ih =>
    rw [List.flatMap_cons] at hlimits hfree hnames ⊢
    rw [List.map_append] at hnames
    obtain ⟨hown, hrest, hapart⟩ := List.pairwise_append.1 hnames
    obtain ⟨hlimit, hlimits⟩ := List.forall_mem_append.1 hlimits
    obtain ⟨hname, hfree⟩ := List.forall_mem_append.1 hfree
    obtain ⟨hcolumn, hcolumns⟩ := List.forall_mem_cons.1 hcolumns
    obtain ⟨next, hfirst, hbare'⟩ := exists_makes_definitions hbare hlimit hname hown hcolumn
    obtain ⟨s', hmakes⟩ := ih hbare' hlimits (fun d hd => hfirst.isFree (hfree d hd) fun e he =>
      hapart e.name (List.mem_map_of_mem he) d.name (List.mem_map_of_mem hd)) hrest hcolumns
    exact ⟨s', hfirst.append hmakes⟩

end Store

/-! ## What building a catalog checks -/

namespace Catalog

/-- A built catalog takes no name twice. -/
theorem nodup_takenNames {tables : List Table} {catalog : Catalog}
    (h : build tables = .ok catalog) : catalog.takenNames.Nodup := by
  have hkeys : catalog.entries.map (·.1) = catalog.tables.map Table.name := by
    rw [Catalog.tables, List.map_map]
    refine List.map_congr_left fun entry hentry => ?_
    obtain ⟨t, -, rfl⟩ := List.mem_map.1 ((entries_perm_of_build h).mem_iff.1 hentry)
    rfl
  have hnames := (isOrdered_of_build h).nodup
  obtain ⟨-, -, -, hchecked⟩ := build_eq_ok_iff.1 h
  obtain ⟨hconstraints, hapart⟩ := checkConstraintNames_eq_ok_iff.1 hchecked
  obtain ⟨entries⟩ := catalog
  have hperm : ((entries.map (·.1)) ++ (constraints entries).map fun entry => entry.1.name).Perm
      (takenNames ⟨entries⟩) := by
    rw [hkeys, map_name_constraints, List.map_eq_flatMap]
    exact List.flatMap_append_perm _ _ _
  refine hperm.nodup_iff.1 (List.nodup_append'.2 ⟨hnames, hconstraints, ?_⟩)
  intro name hname hconstraint
  obtain ⟨entry, hentry, rfl⟩ := List.mem_map.1 hconstraint
  exact (hapart entry hentry).1 hname

/-- The columns of the definition of a table. -/
theorem pairwise_definition {t : Table} :
    ((t.columns.map Column.definition).map ColumnDefinition.name).Pairwise
        (fun a b => sameName a b = false)
      ↔ t.columns.Pairwise fun c d => sameName c.name d.name = false := by
  rw [List.map_map, List.pairwise_map]
  rfl

/-- **A built catalog is created if no two of its names differ in case only.** The tables and
constraints of a built catalog have different names, and so have the columns of each of its tables.
Its definitions are carried out in an empty store, none of them passed over, if and only if these
names still differ when case is ignored and every definition is within the limits of the store. Then
every table is stored, with the index of every constraint. -/
theorem makes_iff_of_build {tables : List Table} {catalog : Catalog}
    (h : build tables = .ok catalog) (now : Int64) :
    catalog.takenNames.Nodup ∧ (∀ t ∈ catalog.tables, (t.columns.map Column.name).Nodup) ∧
    ((∃ store, (Store.empty now).Makes catalog.definitions store) ↔
      catalog.takenNames.Pairwise (fun a b => sameName a b = false) ∧
        (∀ t ∈ catalog.tables, t.columns.Pairwise fun c d => sameName c.name d.name = false) ∧
        ∀ d ∈ catalog.definitions, d.IsWithinLimits) ∧
    ∀ store, (Store.empty now).Makes catalog.definitions store →
      (Store.empty now).defineAll catalog.definitions = (.ok (), store) ∧
        ∀ t ∈ catalog.tables, ∃ rel, store.relation? t.name = some rel ∧ t.IsStoredAs rel ∧
          ∀ u ∈ t.unique, ⟨some u.name, u.columns.map (indexTerm rel)⟩ ∈ rel.indexes := by
  refine ⟨nodup_takenNames h, fun t ht => Table.nodup_of_check (check_of_build h t ht), ?_, ?_⟩
  · rw [← map_name_definitions]
    constructor
    · rintro ⟨store, hmakes⟩
      refine ⟨hmakes.pairwise_name, fun t ht => ?_, hmakes.isWithinLimits⟩
      have hmem : .table t.name (t.columns.map Column.definition) ∈ catalog.definitions :=
        List.mem_flatMap.2 ⟨t, ht, List.mem_cons_self⟩
      exact pairwise_definition.1 (hmakes.pairwise_columns hmem)
    · rintro ⟨hnames, hcolumns, hlimits⟩
      refine Store.exists_makes ⟨rfl, ?_⟩ hlimits (fun d _ => ⟨rfl, rfl⟩) hnames hcolumns
      intro rel hrel
      cases hrel
  · intro store hmakes
    have hdefined := hmakes.defineAll
    have hnames := hmakes.pairwise_name
    refine ⟨hdefined, ?_⟩
    intro t ht
    have htables := pairwise_tables (map_name_definitions catalog ▸ hnames)
    obtain ⟨rel, hrel, hstored⟩ := Store.holds_of_defineAll htables (fun _ _ => rfl) hdefined t ht
    refine ⟨rel, hrel, hstored, ?_⟩
    intro u hu
    have hmem : .index u.name t.name u.columns ∈ catalog.definitions :=
      List.mem_flatMap.2 ⟨t, ht, List.mem_cons_of_mem _ (List.mem_map_of_mem hu)⟩
    obtain ⟨found, hfound, hi⟩ := Store.isIndexedBy_of_index hdefined hnames hmem rfl hrel
    obtain rfl := Option.some.inj (hfound.symm.trans hrel)
    exact hi

/-- A table of pairs of numbers that no two rows share. -/
def pairs (name constraint : String) : Table where
  name := name
  columns := [{ name := "x", type := .int }, { name := "y", type := .int }]
  unique := [⟨constraint, ["y", "x"]⟩]

theorem makes_iff_of_build_pairs :
    let catalog : Catalog := ⟨[("A", pairs "A" "uniq_a"), ("B", pairs "B" "uniq_b")]⟩
    build [pairs "B" "uniq_b", pairs "A" "uniq_a"] = .ok catalog ∧
      ∃ store, (Store.empty 0).Makes catalog.definitions store ∧
        ∀ t ∈ catalog.tables, ∃ rel, store.relation? t.name = some rel ∧ t.IsStoredAs rel ∧
          ∀ u ∈ t.unique, ⟨some u.name, u.columns.map (indexTerm rel)⟩ ∈ rel.indexes := by
  intro catalog
  have hbuild : build [pairs "B" "uniq_b", pairs "A" "uniq_a"] = .ok catalog := by rfl
  obtain ⟨-, -, hiff, hstored⟩ := makes_iff_of_build hbuild 0
  have hlimits : ∀ d ∈ catalog.definitions, Store.checkReadable d.tokens = .ok () ∧
      isReserved d.name = false ∧ d.width ≤ maxTerms ∧ ∀ l ∈ d.defaults, l.isReadable = true := by
    decide +kernel
  obtain ⟨store, hmakes⟩ := hiff.2 ⟨by decide +kernel, by decide +kernel, fun d hd =>
    ⟨(hlimits d hd).1, (hlimits d hd).2.1, (hlimits d hd).2.2.1, (hlimits d hd).2.2.2⟩⟩
  exact ⟨hbuild, store, hmakes, (hstored store hmakes).2⟩

/-- Names of constraints that differ in case only are built, and the second of them has no index. -/
theorem not_makes_of_case :
    let catalog : Catalog := ⟨[("A", pairs "A" "uniq"), ("B", pairs "B" "UNIQ")]⟩
    let made := (Store.empty 0).defineAll catalog.definitions
    build [pairs "A" "uniq", pairs "B" "UNIQ"] = .ok catalog ∧
      ¬ catalog.takenNames.Pairwise (fun a b => sameName a b = false) ∧
      made.1.isOk = true ∧ (made.2.relation? "A").map (·.indexes.length) = some 1 ∧
      (made.2.relation? "B").map (·.indexes.length) = some 0 := by
  intro catalog made
  exact ⟨by rfl, by decide +kernel⟩

/-- A default that is infinitely low is built, but a sign cannot be read before a word. -/
example :
    let well : Table := {
      name := "Well"
      columns := [{ name := "height", type := .float, default? := some (.value (.float (-1 / 0))) }] }
    (build [well]).isOk = true ∧ ((Store.empty 0).defineAll well.definitions).1.isOk = false := by
  decide +kernel

end Catalog

end Tabula
