import Tabula.Proofs.Database.Created

/-!
# From creating to reading

Main statement: what a create request is given is read back from its table, in rows next to those that
were there (`read_whole_of_create`). The one value that may come back changed is a float that a column
has as its default: its shortest text, in the definition of the table, is now and then read as the
float next to it (`read_default_next`).
-/

namespace Tabula

open Store (Relation sameName)

namespace Database

/-- Whether every table of the catalog of a database can be created, and is stored with the columns that
it is defined with. Its rows may be any. -/
structure IsLaidOut (db : Database) : Prop extends db.Fits where
  isDefinable : ∀ t, db.catalog.table? t.name = some t → t.IsDefinable
  isLaidOutAs : db.Holds Table.IsLaidOutAs

/-! ## Databases that were opened -/

theorem isDefinable_of_defineAll {s s' : Store} {tables : List Table}
    (hdistinct : tables.Pairwise fun t u => sameName t.name u.name = false)
    (hfree : ∀ t ∈ tables, s.relation? t.name = none)
    (h : s.defineAll (tables.flatMap Table.definitions) = (.ok (), s')) :
    ∀ t ∈ tables, t.IsDefinable := by
  intro t ht
  obtain ⟨before, after, rfl⟩ := List.append_of_mem ht
  rw [List.flatMap_append, List.flatMap_cons] at h
  obtain ⟨first, hfirst, hrest⟩ := Store.defineAll_append h
  obtain ⟨made, hmade, -⟩ := Store.defineAll_cons hrest
  refine ⟨first, made, ?_, hmade⟩
  -- The tables that were created before have other names.
  apply Store.relation?_of_defineAll hfirst (hfree t ht)
  intro name columns hmem
  obtain ⟨u, hu, hdefinition⟩ := List.mem_flatMap.1 hmem
  rw [Store.table_of_mem_definitions hdefinition]
  exact (List.pairwise_append.1 hdistinct).2.2 u hu t List.mem_cons_self

/-- **A database that is opened is laid out by its catalog, and stays so in every run**, if its tables
are created in an empty store and no two of them have the same name. -/
theorem isLaidOut_of_run {tables : List Table} {catalog : Catalog} {c : Configuration}
    {entropy : Entropy} {now : Int64} {store : Store} {start db : Database}
    (hbuild : Catalog.build tables = .ok catalog)
    (hdistinct : tables.Pairwise fun t u => sameName t.name u.name = false)
    (hcreates : c.createsTables = true)
    (hopen : openStore c catalog entropy (Store.empty now) = (.ok start, store))
    (hrun : Run start db) : db.IsLaidOut := by
  have htyped : db.IsTyped := (isTyped_of_openStore hbuild hdistinct hcreates hopen).of_run hrun
  obtain ⟨rfl, hdefined, -⟩ := openStore_eq_ok hcreates hopen
  have hcatalog : db.catalog = start.catalog := hrun.steps.isBeside.catalog
  have hpairwise := (Catalog.tables_perm_of_build hbuild).symm.pairwise hdistinct fun h => by
    rw [Store.sameName_comm, h]
  refine ⟨htyped.toFits, ?_, ?_⟩
  · intro t ht
    rw [hcatalog] at ht
    have ht := (Catalog.mem_of_table? hbuild ht).2
    exact isDefinable_of_defineAll hpairwise (fun _ _ => rfl) hdefined t ht
  · intro t ht
    obtain ⟨rel, hrel, htypes⟩ := htyped.types t ht
    exact ⟨rel, hrel, htypes.toIsLaidOutAs⟩

/-! ## Creating and reading -/

variable {r : CreateRequest} {ids : List Value} {scoping : Scoping}

/-- What creating rows does: the rows are planned and added. -/
theorem create_eq_ok {Keys : Type} [KeyGenerator Keys] {db after : Database Keys}
    (h : create scoping r db = (.ok ids, after)) :
    ∃ t planned p, ∃ start last : Database Keys, db.catalog.table r.table = .ok t ∧
      planRows t ⟨suppliedKeys t r.rows, db.keys⟩ r.rows = (.ok planned, p) ∧
      addRows planned start = (.ok ids, last) ∧ start.store = db.store ∧ after.store = last.store ∧
      (scoping = .joined ∨ db.inTransaction = false) := by
  unfold create at h
  split at h
  · cases (Prod.mk.inj h).1
  next t ht =>
  dsimp only at h
  cases hplanned : planRows t ⟨suppliedKeys t r.rows, db.keys⟩ r.rows with
  | mk result p =>
      rw [hplanned] at h
      cases result with
      | error e => cases (Prod.mk.inj h).1
      | ok planned =>
          obtain ⟨start, last, hadded, -, hstart, hlast, hscope⟩ := within_eq_ok h
          exact ⟨t, planned, p, start, last, ht, hplanned, hadded, hstart, hlast, hscope⟩

variable {db after : Database}

/-- **What is created is read back.** If rows are created, reading the whole table afterwards gives the
rows that it gave before and one row for each that was given: it shows the key that was answered,
the values that were given as their columns keep them, and the defaults of columns that were left
out. The other tables are what they were. -/
theorem read_whole_of_create {tables : List Table} (hbuild : Catalog.build tables = .ok db.catalog)
    (hdistinct : tables.Pairwise fun t u => sameName t.name u.name = false)
    (hlaidOut : db.IsLaidOut) (hordered : ∀ row ∈ r.rows, Assoc.IsOrdered row)
    (h : create scoping r db = (.ok ids, after)) :
    ∃ t previous rows added, db.catalog.table r.table = .ok t ∧ ids.length = r.rows.length ∧
      read scoping (.whole r.table none) db = (.ok previous, db) ∧
      read scoping (.whole r.table none) after = (.ok rows, after) ∧
      rows.Perm (previous ++ added) ∧
      List.Forall₂ (fun entry shown => t.IsCreated db.keys.isSome entry.1 entry.2 shown)
        (r.rows.zip ids) added ∧
      ∀ u ∈ tables, u.name ≠ t.name →
        after.store.relation? u.name = db.store.relation? u.name := by
  have hframe : Frame db after := by
    have hframe := isStepwise_frame.create scoping r db
    rwa [h] at hframe
  obtain ⟨t, planned, p, start, last, ht, hplanned, hadded, hstart, hlast, hscope⟩ := create_eq_ok h
  obtain ⟨hname, hmem⟩ := Catalog.mem_of_table? hbuild (Catalog.table_eq_ok_iff.1 ht)
  have hown : db.catalog.table? t.name = some t := Catalog.table?_of_mem hbuild hmem
  have hcheck := Catalog.check_of_build hbuild t hmem
  have hdefinable := hlaidOut.isDefinable t hown
  obtain ⟨rel, hrel, hlayout⟩ := hlaidOut.isLaidOutAs t hown
  have hsettled := (plans_of_planRows hplanned).isSettled hordered (drawsNoNull_keySource _)
  have hfound : start.store.relation? t.name = some rel := by rw [hstart, hrel]
  obtain ⟨rel', added, hrel', hemptied, hrows, hlength, hcreated, hothers⟩ :=
    exists_rows_of_addRows hcheck hsettled hfound hlayout hadded
  rw [← hlast] at hrel'
  have ht' : after.catalog.table r.table = .ok t := by rw [hframe.catalog, ht]
  have hscope' : scoping = .joined ∨ after.inTransaction = false := by rwa [hframe.inTransaction]
  -- Both reads are of the whole table, before and after.
  obtain ⟨previous, hbefore, hprevious⟩ :=
    exists_read_whole hlaidOut.toFits ht hdefinable hscope
  obtain ⟨shown, hafter, hshown⟩ :=
    exists_read_whole (hlaidOut.toFits.of_frame hframe) ht' hdefinable hscope'
  rw [records_eq (Catalog.table_eq_ok_iff.1 ht) (hname ▸ hrel), List.map_map] at hprevious
  rw [records_eq (Catalog.table_eq_ok_iff.1 ht') (hname ▸ hrel'), List.map_map] at hshown
  refine ⟨t, previous, shown, added.map fun r => Record.shown ⟨t, rel, r⟩, ht, hlength, hbefore, hafter,
    ?_, List.forall₂_map_right_iff.2 hcreated, ?_⟩
  · have hsame : (Record.shown ∘ fun r => ⟨t, rel', r⟩) = fun r => Record.shown ⟨t, rel, r⟩ :=
      funext fun r => Record.shown_congr hemptied r
    rw [hsame] at hshown
    have happended := hrows.map fun r => Record.shown ⟨t, rel, r⟩
    rw [List.map_append] at happended
    exact (hshown.trans happended).trans (hprevious.symm.append_right _)
  · intro u hu hne
    rw [hlast, ← hstart]
    apply hothers
    have : Std.Symm fun t u : Table => sameName t.name u.name = false :=
      ⟨fun a b hab => by rw [Store.sameName_comm, hab]⟩
    have ht := (Catalog.tables_perm_of_build hbuild).mem_iff.1 hmem
    exact hdistinct.forall ht hu fun heq => hne (congrArg Table.name heq.symm)

/-- A length of which the shortest text is read as the float next to it. -/
def misread : Float := Float.ofBits 0x4046ca819d2391d5

/-- A table of takes, whose length is given or else that one. -/
def takeTable : Table where
  name := "Take"
  columns := [
    { name := "id", type := .int, isKey := true },
    { name := "length", type := .float, default? := some (.value (.float misread)) },
    { name := "note", type := .string, nullable := true }]

/-- A table of reels, which have a name for their key. -/
def reelTable : Table where
  name := "Reel"
  columns := [{ name := "name", type := .string, isKey := true }]

/-- A catalog with the tables of reels and takes. -/
def takes : Catalog where
  entries := [("Reel", reelTable), ("Take", takeTable)]

/-- A database that was opened with the catalog in an empty store. -/
def takesOpened : Database where
  catalog := takes
  store := { ((Store.empty 0).defineAll takes.definitions).2 with lastId := 0 }
  keys := none

theorem openStore_takes : openStore {} takes ⟨0⟩ (Store.empty 0)
    = (.ok takesOpened, ((Store.empty 0).defineAll takes.definitions).2) :=
  openStore_of_defineAll (by decide +kernel)

/-- Two takes, of which one has a length and the other a key. -/
def twoTakes : CreateRequest :=
  ⟨"Take", [[("length", .int 12), ("note", .null)], [("id", .int 7), ("note", .string "dark")]]⟩

set_option maxRecDepth 20000 in
/-- Two takes are created one after the other. -/
theorem read_whole_of_create_takes :
    let after := (create .own twoTakes takesOpened).2
    takesOpened.IsLaidOut ∧ create .own twoTakes takesOpened = (.ok [.int 1, .int 7], after) ∧
      ∃ previous rows added, read .own (.whole "Take" none) takesOpened = (.ok previous, takesOpened) ∧
        read .own (.whole "Take" none) after = (.ok rows, after) ∧ rows.Perm (previous ++ added) ∧
        List.Forall₂ (fun entry shown => takeTable.IsCreated false entry.1 entry.2 shown)
          (twoTakes.rows.zip [.int 1, .int 7]) added ∧
        after.store.relation? "Reel" = takesOpened.store.relation? "Reel" := by
  intro after
  have hbuild : Catalog.build takes.tables = .ok takes := by rfl
  have hdistinct : takes.tables.Pairwise fun t u => sameName t.name u.name = false := by decide
  have hlaidOut := isLaidOut_of_run hbuild hdistinct rfl openStore_takes (.refl takesOpened)
  have hordered : ∀ row ∈ twoTakes.rows, Assoc.IsOrdered row := by
    unfold Assoc.IsOrdered twoTakes
    decide
  have hids : (create .own twoTakes takesOpened).1 = .ok [.int 1, .int 7] := by rfl
  have hcreate : create .own twoTakes takesOpened = (.ok [.int 1, .int 7], after) := Prod.ext hids rfl
  obtain ⟨t, previous, rows, added, ht, -, hbefore, hafter, hrows, hadded, hothers⟩ :=
    read_whole_of_create hbuild hdistinct hlaidOut hordered hcreate
  obtain rfl : takeTable = t := Except.ok.inj ht
  have hreel := hothers reelTable List.mem_cons_self (by decide)
  exact ⟨hlaidOut, hcreate, previous, rows, added, hbefore, hafter, hrows, hadded, hreel⟩

set_option maxRecDepth 20000 in
/-- **A default may come back as the float next to it.** A take that is created without a length does
not have the length that is the default. -/
theorem read_default_next :
    let after := (create .own ⟨"Take", [[]]⟩ takesOpened).2
    let length := Float.ofBits 0x4046ca819d2391d6
    Catalog.build takes.tables = .ok takes ∧
      (openStore {} takes ⟨0⟩ (Store.empty 0)).1 = .ok takesOpened ∧
      (∃ c ∈ takeTable.columns, c.name = "length" ∧ c.default? = some (.value (.float misread))) ∧
      (create .own ⟨"Take", [[]]⟩ takesOpened).1 = .ok [.int 1] ∧
      (read .own (.whole "Take" none) after).1
        = .ok [[⟨"id", .int 1⟩, ⟨"length", .float length⟩, ⟨"note", .null⟩]] ∧
      length ≠ misread := by
  intro after length
  have hread : (read .own (.whole "Take" none) after).1
      = .ok [[⟨"id", .int 1⟩, ⟨"length", .float length⟩, ⟨"note", .null⟩]] := by rfl
  refine ⟨by rfl, by rw [openStore_takes], ?_, by rfl, hread, by decide +kernel⟩
  exact ⟨_, List.mem_cons_of_mem _ List.mem_cons_self, rfl, rfl⟩

end Database

end Tabula
