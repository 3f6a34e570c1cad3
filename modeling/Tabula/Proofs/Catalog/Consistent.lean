import Tabula.Proofs.Catalog.Build

/-!
# Consistent schemas

A schema is a list of tables. Here it is said without the checks which schemas are consistent: what a
column may default to, what a table has to be by itself, and which names the tables of one schema may
not share. Main statement: a catalog is built from exactly the consistent schemas, it has their tables
under their names and nothing else, and it does not depend on the order of the tables
(`Catalog.builds_consistent`).
-/

namespace Tabula

/-! ## Defaults -/

namespace ColumnType

variable {t : ColumnType}

/-- Truth values are accepted by their own type. -/
theorem accepts_bool_iff {b : Bool} : t.accepts (.bool b) = true ↔ t = bool := by
  cases t <;> simp [accepts]

/-- Whole numbers are accepted as such, as times and as floats. -/
theorem accepts_int_iff {n : Int64} :
    t.accepts (.int n) = true ↔ t = int ∨ t = timestamp ∨ t = float := by
  cases t <;> simp [accepts]

/-- Floats are accepted by their own type. -/
theorem accepts_float_iff {x : Float} : t.accepts (.float x) = true ↔ t = float := by
  cases t <;> simp [accepts]

/-- Strings are accepted by their own type. -/
theorem accepts_string_iff {s : String} : t.accepts (.string s) = true ↔ t = string := by
  cases t <;> simp [accepts]

end ColumnType

/-- Whether a column may have a default: a literal of its type, null if it may be null, or the
current time if it holds whole numbers. -/
inductive Column.Takes (c : Column) : Default → Prop
  | null (h : c.nullable = true) : Takes c (.value .null)
  | bool (h : c.type = .bool) (b : Bool) : Takes c (.value (.bool b))
  | int (h : c.type = .int ∨ c.type = .timestamp ∨ c.type = .float) (n : Int64) :
      Takes c (.value (.int n))
  | float (h : c.type = .float) (x : Float) : Takes c (.value (.float x))
  | string (h : c.type = .string) (s : String) : Takes c (.value (.string s))
  | currentTimestamp (h : c.type = .timestamp ∨ c.type = .int) : Takes c .currentTimestamp

/-- A default fits its column if the column takes it. -/
theorem Column.defaultFits_iff {c : Column} :
    c.defaultFits = true ↔ ∀ d ∈ c.default?, c.Takes d := by
  unfold defaultFits
  cases c.default? with
  | none => simp
  | some d =>
      simp only [Option.mem_some_iff, forall_eq']
      constructor
      · intro h
        cases d with
        | currentTimestamp => exact .currentTimestamp (by simpa using h)
        | value v =>
            cases v with
            | null => exact .null h
            | bool b => exact .bool (ColumnType.accepts_bool_iff.1 h) b
            | int n => exact .int (ColumnType.accepts_int_iff.1 h) n
            | float x => exact .float (ColumnType.accepts_float_iff.1 h) x
            | string s => exact .string (ColumnType.accepts_string_iff.1 h) s
            | list items => cases h
      · intro h
        cases h with
        | null h => exact h
        | bool h b => exact ColumnType.accepts_bool_iff.2 h
        | int h n => exact ColumnType.accepts_int_iff.2 h
        | float h x => exact ColumnType.accepts_float_iff.2 h
        | string h s => exact ColumnType.accepts_string_iff.2 h
        | currentTimestamp h => simpa using h

/-! ## Tables -/

namespace Table

/-- Whether a name can be told from what stands around it in a reference. -/
def IsName (name : String) : Prop :=
  name ≠ "" ∧ '.' ∉ name.toList ∧ name ≠ "*"

/-- Whether a table is consistent in itself. -/
structure IsWellFormed (t : Table) : Prop where
  isName : IsName t.name
  columns_ne_nil : t.columns ≠ []
  columns : ∀ c ∈ t.columns, IsName c.name ∧ ∀ d ∈ c.default?, c.Takes d
  nodup : (t.columns.map Column.name).Nodup
  keys : (t.columns.filter Column.isKey).length ≤ 1
  keyType : ∀ c ∈ t.columns, c.isKey = true → c.type = .int ∨ c.type = .string
  unique : ∀ u ∈ t.unique, u.columns ≠ [] ∧ ∀ name ∈ u.columns, ∃ c ∈ t.columns, c.name = name

/-- The tables that pass their check are those that are consistent in themselves. -/
theorem check_eq_ok_iff_isWellFormed {t : Table} : t.check = .ok () ↔ t.IsWellFormed := by
  simp only [check_eq_ok_iff, checkColumns_eq_ok_iff, checkKey_eq_ok_iff, Except.forM_eq_ok_iff,
    checkConstraint_eq_ok_iff, isName_iff, hasColumn_iff, Column.defaultFits_iff,
    ColumnType.isKeyType_iff]
  constructor
  · rintro ⟨hname, hne, ⟨hcolumns, hnodup⟩, ⟨hkeys, hkeyType⟩, hunique⟩
    exact ⟨hname, hne, fun c hc => ⟨(hcolumns c hc).1, (hcolumns c hc).2.2⟩, hnodup, hkeys, hkeyType,
      hunique⟩
  · intro h
    exact ⟨h.isName, h.columns_ne_nil,
      ⟨fun c hc => ⟨(h.columns c hc).1, List.not_mem_nil, (h.columns c hc).2⟩, h.nodup⟩,
      ⟨h.keys, h.keyType⟩, h.unique⟩

end Table

/-! ## Schemas -/

/-- Whether the tables of a schema are consistent, alone and with each other. The names of constraints
are those of tables of the store, so no two constraints share one, not even of different tables. -/
structure IsConsistentSchema (tables : List Table) : Prop where
  isWellFormed : ∀ t ∈ tables, t.IsWellFormed
  tableNames : (tables.map Table.name).Nodup
  constraintNames : (tables.flatMap fun t => t.unique.map UniqueConstraint.name).Nodup
  apart : ∀ t ∈ tables, ∀ u ∈ t.unique, ∀ s ∈ tables, u.name ≠ s.name

/-- Whether a schema is consistent does not depend on the order of its tables. -/
theorem IsConsistentSchema.perm {tables tables' : List Table} (h : IsConsistentSchema tables)
    (hperm : tables.Perm tables') : IsConsistentSchema tables' where
  isWellFormed t ht := h.isWellFormed t (hperm.mem_iff.2 ht)
  tableNames := (hperm.map _).nodup_iff.1 h.tableNames
  constraintNames := (hperm.flatMap_right _).nodup_iff.1 h.constraintNames
  apart t ht u hu s hs := h.apart t (hperm.mem_iff.2 ht) u hu s (hperm.mem_iff.2 hs)

namespace Catalog

/-- The catalog that has tables under their names. -/
def ofTables (tables : List Table) : Catalog :=
  ⟨Assoc.ofList (tables.map fun t => (t.name, t))⟩

/-- With distinct tables the constraints are checked to have names of their own. -/
theorem checkConstraintNames_ofTables_iff {tables : List Table}
    (hnodup : (tables.map Table.name).Nodup) :
    checkConstraintNames (ofTables tables).entries [] (constraints (ofTables tables).entries)
        = .ok () ↔
      (tables.flatMap fun t => t.unique.map UniqueConstraint.name).Nodup ∧
        ∀ t ∈ tables, ∀ u ∈ t.unique, ∀ s ∈ tables, u.name ≠ s.name := by
  have hentries : (ofTables tables).entries.Perm (tables.map fun t => (t.name, t)) :=
    Assoc.ofList_perm (by rwa [fst_map_entry])
  have htables : ((ofTables tables).entries.map (·.2)).Perm tables := by
    have hperm := hentries.map (·.2)
    rwa [List.map_map, show ((·.2) ∘ fun t : Table => (t.name, t)) = id from rfl, List.map_id]
      at hperm
  have hnames : ((ofTables tables).entries.map (·.1)).Perm (tables.map Table.name) := by
    rw [← fst_map_entry]
    exact hentries.map _
  rw [checkConstraintNames_eq_ok_iff, map_name_constraints, (htables.flatMap_right _).nodup_iff]
  refine and_congr_right fun _ => ?_
  simp only [constraints, List.mem_flatMap, List.mem_map, hnames.mem_iff, hentries.mem_iff]
  constructor
  · intro h t ht u hu s hs hname
    exact (h (u, t.name) ⟨(t.name, t), ⟨t, ht, rfl⟩, u, hu, rfl⟩).1 ⟨s, hs, hname.symm⟩
  · rintro h entry ⟨pair, ⟨t, ht, rfl⟩, u, hu, rfl⟩
    refine ⟨?_, by simp⟩
    rintro ⟨s, hs, hname⟩
    exact h t ht u hu s hs hname.symm

/-- **A catalog is built from exactly the consistent schemas.** -/
theorem build_eq_ok_iff_isConsistentSchema {tables : List Table} {c : Catalog} :
    build tables = .ok c ↔ IsConsistentSchema tables ∧ c = ofTables tables := by
  rw [build_eq_ok_iff]
  constructor
  · rintro ⟨hcheck, hnodup, hentries, hnames⟩
    obtain rfl : c = ofTables tables := congrArg Catalog.mk hentries
    obtain ⟨hconstraints, hapart⟩ := (checkConstraintNames_ofTables_iff hnodup).1 hnames
    exact ⟨⟨fun t ht => Table.check_eq_ok_iff_isWellFormed.1 (hcheck t ht), hnodup, hconstraints,
      hapart⟩, rfl⟩
  · rintro ⟨h, rfl⟩
    exact ⟨fun t ht => Table.check_eq_ok_iff_isWellFormed.2 (h.isWellFormed t ht), h.tableNames, rfl,
      (checkConstraintNames_ofTables_iff h.tableNames).2 ⟨h.constraintNames, h.apart⟩⟩

/-- The order of distinct tables does not matter. -/
theorem ofTables_perm {tables tables' : List Table} (hperm : tables.Perm tables')
    (hnodup : (tables.map Table.name).Nodup) : ofTables tables = ofTables tables' := by
  have hperm' : (tables.map fun t => (t.name, t)).Perm (tables'.map fun t => (t.name, t)) :=
    hperm.map _
  exact congrArg Catalog.mk (Assoc.ofList_eq_of_perm hperm' (by rwa [fst_map_entry]))

/-- The order in which tables are declared does not matter. -/
theorem build_eq_ok_iff_of_perm {tables tables' : List Table} (hperm : tables.Perm tables')
    {c : Catalog} : build tables = .ok c ↔ build tables' = .ok c := by
  rw [build_eq_ok_iff_isConsistentSchema, build_eq_ok_iff_isConsistentSchema]
  constructor
  · rintro ⟨h, rfl⟩
    exact ⟨h.perm hperm, ofTables_perm hperm h.tableNames⟩
  · rintro ⟨h, rfl⟩
    exact ⟨h.perm hperm.symm, ofTables_perm hperm.symm h.tableNames⟩

/-- A built catalog has exactly the declared tables, each under its name. -/
theorem table?_eq_some_iff_of_build {tables : List Table} {c : Catalog} (h : build tables = .ok c)
    {name : String} {t : Table} : c.table? name = some t ↔ t ∈ tables ∧ t.name = name := by
  have hmem := (tables_perm_of_build h).mem_iff (a := t)
  constructor
  · intro ht
    obtain ⟨hname, htable⟩ := mem_of_table? h ht
    exact ⟨hmem.1 htable, hname⟩
  · rintro ⟨ht, rfl⟩
    exact table?_of_mem h (hmem.2 ht)

/-- **Building a catalog accepts exactly the consistent schemas, in any order.** It succeeds on a list
of tables if and only if they are consistent; the catalog then has every table of the list, as it is
declared, under its name, and nothing else; and any other order of the tables builds the same catalog
or none either. -/
theorem builds_consistent (tables : List Table) :
    ((∃ c, build tables = .ok c) ↔ IsConsistentSchema tables) ∧
    (∀ c, build tables = .ok c → c.tables.Perm tables ∧
      ∀ name t, c.table? name = some t ↔ t ∈ tables ∧ t.name = name) ∧
    ∀ tables', tables.Perm tables' → ∀ c, build tables = .ok c ↔ build tables' = .ok c := by
  refine ⟨?_, fun c h => ⟨tables_perm_of_build h, fun name t => table?_eq_some_iff_of_build h⟩,
    fun tables' hperm c => build_eq_ok_iff_of_perm hperm⟩
  simp only [build_eq_ok_iff_isConsistentSchema, exists_and_left, exists_eq, and_true]

/-- The tracks of a score. -/
def tracks : Table where
  name := "Track"
  columns := [{ name := "code", type := .string, isKey := true },
    { name := "muted", type := .bool, default? := some (.value (.bool false)) },
    { name := "label", type := .string, isUnique := true, default? := some (.value (.string "it's")) }]

/-- The cues of a score. -/
def cues : Table where
  name := "Cue"
  columns := [{ name := "id", type := .int, isKey := true }, { name := "track", type := .string },
    { name := "gain", type := .float, default? := some (.value (.int 1)) },
    { name := "note", type := .string, nullable := true, default? := some (.value .null) },
    { name := "at", type := .timestamp, default? := some .currentTimestamp }]
  unique := [⟨"cue_place", ["track", "at"]⟩, ⟨"cue_note", ["note"]⟩]

theorem builds_consistent_score :
    build [tracks, cues] = .ok ⟨[("Cue", cues), ("Track", tracks)]⟩ ∧
      IsConsistentSchema [tracks, cues] ∧
      table? ⟨[("Cue", cues), ("Track", tracks)]⟩ "Track" = some tracks ∧
      [tracks, cues].Perm [cues, tracks] ∧
      build [cues, tracks] = .ok ⟨[("Cue", cues), ("Track", tracks)]⟩ := by
  have hbuild : build [tracks, cues] = .ok ⟨[("Cue", cues), ("Track", tracks)]⟩ := by rfl
  have hperm : [tracks, cues].Perm [cues, tracks] := .swap cues tracks []
  obtain ⟨hconsistent, hfound, horder⟩ := builds_consistent [tracks, cues]
  exact ⟨hbuild, hconsistent.1 ⟨_, hbuild⟩,
    ((hfound _ hbuild).2 "Track" tracks).2 ⟨List.mem_cons_self, rfl⟩, hperm,
    (horder _ hperm _).1 hbuild⟩

end Catalog

end Tabula
