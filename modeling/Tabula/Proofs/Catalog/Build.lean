import Tabula.Catalog.Basic
import Tabula.Proofs.Assoc
import Tabula.Proofs.Result

/-!
# Built catalogs

A catalog that is built from tables has exactly these tables, each under its own name
(`entries_perm_of_build`), and every one of them is consistent (`isConsistent_of_build`).
-/

namespace Tabula

/-! ## Consistent tables -/

theorem ColumnType.isKeyType_iff {t : ColumnType} :
    t.isKeyType = true ↔ t = int ∨ t = string := by
  cases t <;> simp [isKeyType]

/-- Whether the defaults of a table fit its columns, and no two of its columns are the primary key. -/
structure Table.IsConsistent (t : Table) : Prop where
  defaultFits : ∀ c ∈ t.columns, c.defaultFits = true
  pairwise_isKey : t.columns.Pairwise fun c d => c.isKey = true → d.isKey = true → False

namespace Table

theorem column_eq_ok_iff {t : Table} {name : String} {c : Column} :
    t.column name = .ok c ↔ t.column? name = some c := by
  unfold Table.column
  cases t.column? name <;> simp

theorem column_eq_ok {t : Table} {name : String} {c : Column} (h : t.column name = .ok c) :
    c ∈ t.columns ∧ c.name = name := by
  have hfind : t.columns.find? (fun c => c.name = name) = some c := column_eq_ok_iff.1 h
  exact ⟨List.mem_of_find?_eq_some hfind, by simpa using List.find?_some hfind⟩

/-- Tables and columns may have any name but the empty one, the wildcard, and those with a point. -/
theorem isName_iff {name : String} :
    isName name = true ↔ name ≠ "" ∧ '.' ∉ name.toList ∧ name ≠ "*" := by
  simp [isName, and_assoc]

/-- Columns pass their check exactly if each has a name that it may have and a default that fits it,
and no name is there twice or was seen before. -/
theorem checkColumns_eq_ok_iff {table : String} {seen : List String} {columns : List Column} :
    checkColumns table seen columns = .ok () ↔
      (∀ c ∈ columns, isName c.name = true ∧ c.name ∉ seen ∧ c.defaultFits = true) ∧
        (columns.map Column.name).Nodup := by
  -- By induction on the columns, whatever names were seen before them: each column adds its own.
  induction columns generalizing seen with
  | nil => simp [checkColumns]
  | cons first columns ih =>
      rw [List.forall_mem_cons, List.map_cons, List.nodup_cons, checkColumns]
      constructor
      · intro h
        dsimp only at h
        split at h
        · cases h
        next hname =>
        split at h
        · cases h
        next hseen =>
        split at h
        · cases h
        next hfits =>
        obtain ⟨hall, hnodup⟩ := ih.1 h
        refine ⟨⟨⟨by simpa using hname, by simpa using hseen, by simpa using hfits⟩, ?_⟩, ?_, hnodup⟩
        · exact fun c hc => ⟨(hall c hc).1, fun hmem => (hall c hc).2.1 (List.mem_cons_of_mem _ hmem),
            (hall c hc).2.2⟩
        · intro hmem
          obtain ⟨c, hc, hname⟩ := List.mem_map.1 hmem
          exact (hall c hc).2.1 (hname ▸ List.mem_cons_self)
      · rintro ⟨⟨⟨hname, hseen, hfits⟩, hall⟩, hfirst, hnodup⟩
        rw [if_neg (by simpa using hname), if_neg (by simpa using hseen),
          if_neg (by simpa using hfits)]
        refine ih.2 ⟨fun c hc => ⟨(hall c hc).1, ?_, (hall c hc).2.2⟩, hnodup⟩
        rw [List.mem_cons, not_or]
        exact ⟨fun heq => hfirst (heq ▸ List.mem_map_of_mem hc), (hall c hc).2.1⟩

/-- The primary key passes its check if there is at most one, of a type that keys may have. -/
theorem checkKey_eq_ok_iff {t : Table} :
    t.checkKey = .ok () ↔ (t.columns.filter Column.isKey).length ≤ 1 ∧
      ∀ c ∈ t.columns, c.isKey = true → c.type.isKeyType = true := by
  have hkeys : (∀ c ∈ t.columns, c.isKey = true → c.type.isKeyType = true) ↔
      ∀ c ∈ t.columns.filter Column.isKey, c.type.isKeyType = true := by
    simp only [List.mem_filter, and_imp]
  rw [hkeys]
  unfold checkKey
  split
  · next hnone => simp [hnone]
  · next key hone => simp [hone]
  · next hnil hsingle =>
      have hseveral : ¬ (t.columns.filter Column.isKey).length ≤ 1 := by
        intro hle
        rcases Nat.le_one_iff_eq_zero_or_eq_one.1 hle with hzero | hone
        · exact hnil (List.eq_nil_of_length_eq_zero hzero)
        · obtain ⟨key, hkey⟩ := List.length_eq_one_iff.1 hone
          exact hsingle key hkey
      simp [hseveral]

theorem pairwise_isKey_of_checkKey {t : Table} (h : t.checkKey = .ok ()) :
    t.columns.Pairwise fun c d => c.isKey = true → d.isKey = true → False := by
  rw [← List.pairwise_filter]
  have hle := (checkKey_eq_ok_iff.1 h).1
  match hkeys : t.columns.filter Column.isKey with
  | [] => exact .nil
  | [key] => exact List.pairwise_singleton _ _
  | _ :: _ :: _ => simp [hkeys] at hle

theorem hasColumn_iff {t : Table} {name : String} :
    t.hasColumn name = true ↔ ∃ c ∈ t.columns, c.name = name := by
  simp [hasColumn, column?]

/-- A constraint passes its check if it has columns, all of them the table's. -/
theorem checkConstraint_eq_ok_iff {t : Table} {u : UniqueConstraint} :
    t.checkConstraint u = .ok () ↔
      u.columns ≠ [] ∧ ∀ name ∈ u.columns, t.hasColumn name = true := by
  unfold checkConstraint
  by_cases hempty : u.columns = []
  · simp [hempty]
  rw [if_neg (by simpa using hempty)]
  cases hfind : u.columns.find? fun c => !t.hasColumn c with
  | none => simpa [hempty] using hfind
  | some missing =>
      have hmissing : t.hasColumn missing = false := by simpa using List.find?_some hfind
      have hmem := List.mem_of_find?_eq_some hfind
      refine ⟨nofun, fun h => ?_⟩
      rw [h.2 missing hmem] at hmissing
      cases hmissing

/-- What a table is checked for. -/
theorem check_eq_ok_iff {t : Table} :
    t.check = .ok () ↔ isName t.name = true ∧ t.columns ≠ [] ∧
      checkColumns t.name [] t.columns = .ok () ∧ t.checkKey = .ok () ∧
      t.unique.forM t.checkConstraint = .ok () := by
  unfold check
  constructor
  · intro h
    dsimp only at h
    split at h
    · cases h
    next hname =>
    split at h
    · cases h
    next hcolumns =>
    obtain ⟨⟨⟩, hchecked, h⟩ := Except.bind_eq_ok_iff.1 h
    obtain ⟨⟨⟩, hkey, h⟩ := Except.bind_eq_ok_iff.1 h
    exact ⟨by simpa using hname, by simpa using hcolumns, hchecked, hkey, h⟩
  · rintro ⟨hname, hcolumns, hchecked, hkey, hunique⟩
    rw [if_neg (by simpa using hname), if_neg (by simpa using hcolumns), hchecked, Except.ok_bind,
      hkey, Except.ok_bind]
    exact hunique

theorem isConsistent_of_check {t : Table} (h : t.check = .ok ()) : t.IsConsistent := by
  obtain ⟨-, -, hcolumns, hkey, -⟩ := check_eq_ok_iff.1 h
  exact ⟨fun c hc => ((checkColumns_eq_ok_iff.1 hcolumns).1 c hc).2.2,
    pairwise_isKey_of_checkKey hkey⟩

/-- A table that is checked has no column twice. -/
theorem nodup_of_check {t : Table} (h : t.check = .ok ()) : (t.columns.map Column.name).Nodup :=
  (checkColumns_eq_ok_iff.1 (check_eq_ok_iff.1 h).2.2.1).2

/-- A primary key is of a type that keys may have. -/
theorem isKeyType_of_check {t : Table} (h : t.check = .ok ()) {c : Column} (hc : c ∈ t.columns)
    (hkey : c.isKey = true) : c.type.isKeyType = true :=
  (checkKey_eq_ok_iff.1 (check_eq_ok_iff.1 h).2.2.2.1).2 c hc hkey

/-- The columns of a constraint are columns of its table. -/
theorem hasColumn_of_check {t : Table} (h : t.check = .ok ()) {u : UniqueConstraint}
    (hu : u ∈ t.unique) : ∀ name ∈ u.columns, t.hasColumn name = true :=
  (checkConstraint_eq_ok_iff.1 (Except.forM_eq_ok_iff.1 (check_eq_ok_iff.1 h).2.2.2.2 u hu)).2

end Table

namespace Catalog

theorem table_eq_ok_iff {c : Catalog} {name : String} {t : Table} :
    c.table name = .ok t ↔ c.table? name = some t := by
  unfold Catalog.table
  cases c.table? name <;> simp

theorem mem_tables {c : Catalog} {name : String} {t : Table} (h : c.table name = .ok t) :
    t ∈ c.tables :=
  List.mem_map.2 ⟨_, Assoc.mem_of_find? (table_eq_ok_iff.1 h), rfl⟩

/-- Tables are added if each of them passes its check and has a name of its own. -/
theorem addTables_eq_ok_iff {entries entries' : Assoc Table} {tables : List Table} :
    addTables entries tables = .ok entries' ↔
      (∀ t ∈ tables, t.check = .ok () ∧ t.name ∉ entries.map (·.1)) ∧
        (tables.map Table.name).Nodup ∧
        entries' = tables.foldl (fun m t => Assoc.insert m t.name t) entries := by
  -- By induction on the tables, whatever the entries are that they are added to: each table that
  -- passes adds its name to the keys, which the tables after it may not have.
  induction tables generalizing entries with
  | nil => simp [addTables, eq_comm]
  | cons t tables ih =>
      rw [addTables, List.forall_mem_cons, List.map_cons, List.nodup_cons, List.foldl_cons]
      constructor
      · intro h
        obtain ⟨⟨⟩, hcheck, h⟩ := Except.bind_eq_ok_iff.1 h
        split at h
        · cases h
        next hfree =>
        have hnone : Assoc.find? entries t.name = none := by simpa using hfree
        obtain ⟨hall, hnodup, rfl⟩ := ih.1 h
        have hinsert : (Assoc.insert entries t.name t).Perm ((t.name, t) :: entries) :=
          Assoc.insert_perm hnone
        have hkeys := hinsert.map (·.1)
        refine ⟨⟨⟨hcheck, Assoc.find?_eq_none_iff.1 hnone⟩, fun s hs => ⟨(hall s hs).1, ?_⟩⟩,
          ⟨?_, hnodup⟩, rfl⟩
        · exact fun hmem => (hall s hs).2 (hkeys.mem_iff.2 (List.mem_cons_of_mem _ hmem))
        · intro hmem
          obtain ⟨s, hs, hname⟩ := List.mem_map.1 hmem
          exact (hall s hs).2 (hkeys.mem_iff.2 (hname ▸ List.mem_cons_self))
      · rintro ⟨⟨⟨hcheck, hfree⟩, hall⟩, ⟨hfirst, hnodup⟩, rfl⟩
        have hnone := Assoc.find?_eq_none_iff.2 hfree
        have hinsert : (Assoc.insert entries t.name t).Perm ((t.name, t) :: entries) :=
          Assoc.insert_perm hnone
        have hkeys := hinsert.map (·.1)
        rw [hcheck, Except.ok_bind, hnone, if_neg (by simp)]
        refine ih.2 ⟨fun s hs => ⟨(hall s hs).1, fun hmem => ?_⟩, hnodup, rfl⟩
        rcases List.mem_cons.1 (hkeys.mem_iff.1 hmem) with hname | hmem
        · exact hfirst (List.mem_map.2 ⟨s, hs, hname⟩)
        · exact (hall s hs).2 hmem

/-- The names of the constraints of tables. -/
theorem map_name_constraints (entries : Assoc Table) :
    (constraints entries).map (fun entry => entry.1.name)
      = (entries.map (·.2)).flatMap fun t => t.unique.map UniqueConstraint.name := by
  rw [constraints, List.map_flatMap, List.flatMap_map]
  simp only [List.map_map]
  rfl

/-- The constraints pass the check of their names if no two have the same name, and none has the
name of a table or of a constraint before them. -/
theorem checkConstraintNames_eq_ok_iff {entries : Assoc Table} {owners : Assoc String}
    {constraints : List (UniqueConstraint × String)} :
    checkConstraintNames entries owners constraints = .ok () ↔
      (constraints.map fun entry => entry.1.name).Nodup ∧ ∀ entry ∈ constraints,
        entry.1.name ∉ entries.map (·.1) ∧ entry.1.name ∉ owners.map (·.1) := by
  induction constraints generalizing owners with
  | nil => simp [checkConstraintNames]
  | cons first constraints ih =>
      obtain ⟨u, table⟩ := first
      rw [checkConstraintNames, List.map_cons, List.nodup_cons, List.forall_mem_cons]
      -- A name is refused if a table has it, or if a constraint before it does; any other is one
      -- more name for the constraints after it to keep clear of.
      by_cases htable : u.name ∈ entries.map (·.1)
      · have hfound : (Assoc.find? entries u.name).isSome = true := by
          rw [Option.isSome_iff_ne_none, ne_eq, Assoc.find?_eq_none_iff, not_not]
          exact htable
        rw [if_pos hfound]
        exact ⟨nofun, fun h => absurd htable h.2.1.1⟩
      rw [if_neg (by simpa [Assoc.find?_eq_none_iff] using htable)]
      cases howner : Assoc.find? owners u.name with
      | some owner =>
          have hmem : u.name ∈ owners.map (·.1) := by
            by_contra hnot
            rw [Assoc.find?_eq_none_iff.2 hnot] at howner
            cases howner
          exact ⟨nofun, fun h => absurd hmem h.2.1.2⟩
      | none =>
          have hinsert : (Assoc.insert owners u.name table).Perm ((u.name, table) :: owners) :=
            Assoc.insert_perm howner
          have hkeys := hinsert.map (·.1)
          refine ih.trans ?_
          simp only [hkeys.mem_iff, List.map_cons, List.mem_cons, not_or]
          constructor
          · rintro ⟨hnodup, hothers⟩
            refine ⟨⟨?_, hnodup⟩, ⟨htable, Assoc.find?_eq_none_iff.1 howner⟩,
              fun entry hmem => ⟨(hothers entry hmem).1, (hothers entry hmem).2.2⟩⟩
            intro hmem
            obtain ⟨entry, hmem, hname⟩ := List.mem_map.1 hmem
            exact (hothers entry hmem).2.1 hname
          · rintro ⟨⟨hfirst, hnodup⟩, -, hothers⟩
            refine ⟨hnodup, fun entry hmem => ⟨(hothers entry hmem).1, ?_, (hothers entry hmem).2⟩⟩
            exact fun hname => hfirst (List.mem_map.2 ⟨entry, hmem, hname⟩)

/-- What tables are checked for when a catalog is built from them. -/
theorem build_eq_ok_iff {tables : List Table} {c : Catalog} :
    build tables = .ok c ↔ (∀ t ∈ tables, t.check = .ok ()) ∧ (tables.map Table.name).Nodup ∧
      c.entries = Assoc.ofList (tables.map fun t => (t.name, t)) ∧
      checkConstraintNames c.entries [] (constraints c.entries) = .ok () := by
  have hentries (m : Assoc Table) : addTables [] tables = .ok m ↔
      (∀ t ∈ tables, t.check = .ok ()) ∧ (tables.map Table.name).Nodup ∧
        m = Assoc.ofList (tables.map fun t => (t.name, t)) := by
    simp [addTables_eq_ok_iff, Assoc.ofList, List.foldl_map]
  constructor
  · intro h
    obtain ⟨m, hm, h⟩ := Except.bind_eq_ok_iff.1 h
    obtain ⟨⟨⟩, hnames, h⟩ := Except.bind_eq_ok_iff.1 h
    obtain rfl := Except.ok.inj h
    obtain ⟨hcheck, hnodup, rfl⟩ := (hentries m).1 hm
    exact ⟨hcheck, hnodup, rfl, hnames⟩
  · rintro ⟨hcheck, hnodup, hm, hnames⟩
    refine Except.bind_eq_ok_iff.2 ⟨_, (hentries c.entries).2 ⟨hcheck, hnodup, hm⟩, ?_⟩
    exact Except.bind_eq_ok_iff.2 ⟨⟨⟩, hnames, rfl⟩

/-- The keys of tables by name are their names. -/
theorem fst_map_entry (tables : List Table) :
    (tables.map fun t => (t.name, t)).map (·.1) = tables.map Table.name :=
  List.map_map

/-- **A built catalog has the tables that it is built from**, each under its own name. -/
theorem entries_perm_of_build {tables : List Table} {c : Catalog} (h : build tables = .ok c) :
    c.entries.Perm (tables.map fun t => (t.name, t)) := by
  obtain ⟨-, hnodup, hentries, -⟩ := build_eq_ok_iff.1 h
  rw [hentries]
  exact Assoc.ofList_perm (by rwa [fst_map_entry])

theorem tables_perm_of_build {tables : List Table} {c : Catalog} (h : build tables = .ok c) :
    c.tables.Perm tables := by
  have hperm := (entries_perm_of_build h).map (·.2)
  rwa [List.map_map, show ((·.2) ∘ fun t : Table => (t.name, t)) = id from rfl, List.map_id] at hperm

/-- A built catalog has its tables under their names. -/
theorem mem_of_table? {tables : List Table} {c : Catalog} (h : build tables = .ok c) {name : String}
    {t : Table} (ht : c.table? name = some t) : t.name = name ∧ t ∈ c.tables := by
  have hmem := Assoc.mem_of_find? ht
  obtain ⟨t', -, ht'⟩ := List.mem_map.1 ((entries_perm_of_build h).mem_iff.1 hmem)
  obtain ⟨rfl, rfl⟩ := Prod.mk.inj ht'
  exact ⟨rfl, List.mem_map.2 ⟨_, hmem, rfl⟩⟩

/-- A built catalog is in the order of the table names. -/
theorem isOrdered_of_build {tables : List Table} {c : Catalog} (h : build tables = .ok c) :
    Assoc.IsOrdered c.entries := by
  obtain ⟨-, -, hentries, -⟩ := build_eq_ok_iff.1 h
  rw [hentries]
  exact Assoc.isOrdered_ofList _

/-- A built catalog has each of its tables under its name. -/
theorem table?_of_mem {tables : List Table} {c : Catalog} (h : build tables = .ok c) {t : Table}
    (ht : t ∈ c.tables) : c.table? t.name = some t := by
  have hmem : (t.name, t) ∈ c.entries :=
    (entries_perm_of_build h).mem_iff.2 (List.mem_map_of_mem ((tables_perm_of_build h).mem_iff.1 ht))
  exact Assoc.find?_of_mem (isOrdered_of_build h).nodup hmem

/-- The tables of a built catalog have passed their checks. -/
theorem check_of_build {tables : List Table} {c : Catalog} (h : build tables = .ok c) :
    ∀ t ∈ c.tables, t.check = .ok () :=
  fun t ht => (build_eq_ok_iff.1 h).1 t ((tables_perm_of_build h).mem_iff.1 ht)

/-- **The tables of a built catalog are consistent.** -/
theorem isConsistent_of_build {tables : List Table} {c : Catalog} (h : build tables = .ok c) :
    ∀ t ∈ c.tables, t.IsConsistent :=
  fun t ht => Table.isConsistent_of_check (check_of_build h t ht)

end Catalog

end Tabula
