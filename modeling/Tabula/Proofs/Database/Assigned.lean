import Tabula.Proofs.Database.RoundTrip

/-!
# Keys that are assigned

A create request answers an id for every row that it is given, whatever the generator of keys draws.
A key that a row brings along is kept, one that it lacks is generated if keys are, and is then told
apart by its text from all other keys of the request; else the store gives the row an id, which is
the key that is stored if the table is laid out as it is defined. Main statement:
`isAssigned_of_create`.
-/

namespace Tabula

open Store (Relation sameName)

/-! ## Keys of rows -/

namespace Table

/-- Whether a row brings a key along, one that is not null. -/
def Brings (t : Table) (row : RowValues) (v : Value) : Prop :=
  ∃ c, t.primaryKey? = some c ∧ Assoc.find? row c.name = some v ∧ v ≠ .null

/-- Whether a table has a key that a row does not bring along. -/
def Lacks (t : Table) (row : RowValues) : Prop :=
  (∃ c, t.primaryKey? = some c) ∧ ∀ v, ¬ t.Brings row v

end Table

namespace Database

variable {t : Table} {c : Column} {given : RowValues} {v : Value}

/-- A key that is supplied is one that the row brings. -/
theorem suppliedKey?_eq_some_iff (hc : t.primaryKey? = some c) :
    suppliedKey? given c.name = some v ↔ t.Brings given v := by
  constructor
  · intro h
    refine ⟨c, hc, find?_of_suppliedKey? h, ?_⟩
    rintro rfl
    exact suppliedKey?_ne_null h
  · rintro ⟨d, hd, hfind, hne⟩
    obtain rfl : c = d := Option.some.inj (hc.symm.trans hd)
    unfold suppliedKey?
    split
    · next hnull =>
        rw [hnull] at hfind
        exact absurd (Option.some.inj hfind).symm hne
    · exact hfind

/-- No key is supplied exactly if the row lacks one. -/
theorem suppliedKey?_eq_none_iff (hc : t.primaryKey? = some c) :
    suppliedKey? given c.name = none ↔ t.Lacks given := by
  rw [Option.eq_none_iff_forall_ne_some]
  constructor
  · intro h
    exact ⟨⟨c, hc⟩, fun v hv => h v ((suppliedKey?_eq_some_iff hc).2 hv)⟩
  · intro h v hv
    exact h.2 v ((suppliedKey?_eq_some_iff hc).1 hv)

/-- The keys that rows bring are in use. -/
theorem text_mem_suppliedKeys {rows : List RowValues} (hgiven : given ∈ rows)
    (h : t.Brings given v) : v.text ∈ suppliedKeys t rows := by
  obtain ⟨c, hc, hfind⟩ := h
  have hv : suppliedKey? given c.name = some v := (suppliedKey?_eq_some_iff hc).2 ⟨c, hc, hfind⟩
  unfold suppliedKeys
  rw [hc]
  exact List.mem_filterMap.2 ⟨given, hgiven, by rw [hv]; rfl⟩

end Database

/-! ## Rows that were created -/

/-- A row that was created: the values that were given and those that were inserted, the row id that
the store has for it, and the id that was answered. -/
structure CreatedRow where
  given : RowValues
  values : RowValues
  rowId : Int64
  id : Value

/-- Whether rows are inserted in a table of a store one after the other, and are given their row
ids. -/
inductive Table.Inserts (t : Table) : Store → List CreatedRow → Store → Prop where
  | nil (s : Store) : Inserts t s [] s
  | cons {s next last : Store} {row : CreatedRow} {rows : List CreatedRow}
      (inserted : s.insert ⟨t.name, row.values⟩ = .ok next) (rowId : next.lastId = row.rowId)
      (inserts : Inserts t next rows last) : Inserts t s (row :: rows) last

/-- Whether a table has the rows that it had in a store before, and one more for each row that was
created, in which the key is the id that was answered. -/
def Table.StoresIds (t : Table) (s : Store) (created : List CreatedRow) (s' : Store) : Prop :=
  ∃ rel rel' added, s.relation? t.name = some rel ∧ s'.relation? t.name = some rel' ∧
    rel'.rows.Perm (rel.rows ++ added) ∧
    List.Forall₂ (fun row r => ∀ c, t.primaryKey? = some c → Record.value ⟨t, rel', r⟩ c = row.id)
      created added

/-- Whether the keys that rows lack are told apart, by their texts, from each other and from every key
that a row brings along. -/
structure Table.TellsApart (t : Table) (created : List CreatedRow) : Prop where
  generated : created.Pairwise fun row other =>
    t.Lacks row.given → t.Lacks other.given → row.id.text ≠ other.id.text
  supplied : ∀ row ∈ created, t.Lacks row.given → ∀ other ∈ created, ∀ v,
    t.Brings other.given v → row.id.text ≠ v.text

section Assignment

variable {Keys : Type} [KeyGenerator Keys]

/-- Whether a generator comes from one state to another by drawing keys of a table. -/
inductive Draws (t : Table) : Keys → Keys → Prop where
  | refl (source : Keys) : Draws t source source
  | draw {source last : Keys} (draws : Draws t source last) :
      Draws t source (KeyGenerator.draw last t).2

/-- Whether a generator draws a key of a table at some time. -/
def IsDrawn (t : Table) (source : Keys) (v : Value) : Prop :=
  ∃ last, Draws t source last ∧ (KeyGenerator.draw last t).1 = .ok v

/-- Whether the key of a row that was created is assigned as it should be, and all else is left as it
was given: a key that the row brings along is kept, one that it lacks is generated if keys are, and
else left to the store. -/
structure IsAssigned (t : Table) (keys : Option Keys) (row : CreatedRow) : Prop where
  unchanged : ∀ name, (∀ c, t.primaryKey? = some c → name ≠ c.name) →
    Assoc.find? row.values name = Assoc.find? row.given name
  keyless : t.primaryKey? = none → row.id = .int row.rowId
  kept : ∀ v, t.Brings row.given v → t.Brings row.values v ∧ row.id = v
  generated : ∀ source, keys = some source → t.Lacks row.given →
    (∀ c, t.primaryKey? = some c → Assoc.find? row.values c.name = some row.id) ∧
      IsDrawn t source row.id
  left : keys = none → t.Lacks row.given →
    (∀ c, t.primaryKey? = some c → Assoc.find? row.values c.name = none) ∧
      row.id = .int row.rowId

variable {t : Table}

namespace Draws

variable {source next last : Keys} {v : Value}

/-- What is drawn after draws is drawn. -/
theorem trans (h : Draws t source next) (hnext : Draws t next last) : Draws t source last := by
  induction hnext with
  | refl => exact h
  | draw _ ih => exact .draw ih

/-- What a later source draws an earlier one does. -/
theorem isDrawn (h : Draws t source next) (hnext : IsDrawn t next v) : IsDrawn t source v := by
  obtain ⟨last, hdraws, hv⟩ := hnext
  exact ⟨last, h.trans hdraws, hv⟩

theorem rel_refl (keys : Option Keys) : Option.Rel (Draws t) keys keys := by
  cases keys with
  | none => exact .none
  | some source => exact .some (.refl source)

end Draws

namespace Database

variable {p next : Planning Keys} {given row : RowValues} {key : Option Value}
  {start : Option Keys} {v : Value}

/-- A key that is drawn was not in use. -/
theorem drawUnused_eq_ok {used : List String} {attempts : Nat} {source after : Keys}
    (h : drawUnused t used attempts source = (.ok v, after)) :
    v.text ∉ used ∧ Draws t source after ∧ IsDrawn t source v := by
  induction attempts generalizing source with
  | zero => simp [drawUnused] at h
  | succ attempts ih =>
      have hfirst : Draws t source (KeyGenerator.draw source t).2 := .draw (.refl source)
      unfold drawUnused at h
      split at h
      · next hdraw =>
          rw [hdraw] at hfirst
          split at h
          · -- The key is in use: it is passed over, and the generator has moved on.
            obtain ⟨hunused, hdraws, hdrawn⟩ := ih h
            exact ⟨hunused, hfirst.trans hdraws, hfirst.isDrawn hdrawn⟩
          · next hunused =>
              obtain ⟨hkey, rfl⟩ := Prod.mk.inj h
              obtain rfl := Except.ok.inj hkey
              refine ⟨?_, hfirst, source, .refl source, by rw [hdraw]⟩
              simpa using hunused
      · simp at h

/-! ## Planned rows -/

namespace Settles

/-- Settling keys draws from the source that there was. -/
theorem draws (hstart : Option.Rel (Draws t) start p.keys) (h : Settles t p given row key next) :
    Option.Rel (Draws t) start next.keys := by
  cases h with
  | keyless | supplied | left => exact hstart
  | drawn _ _ hkeys hdrawn =>
      rw [hkeys] at hstart
      cases hstart with
      | some hdraws => exact .some (hdraws.trans (drawUnused_eq_ok hdrawn).2.1)

/-- Keys in use stay in use. -/
theorem used_subset (h : Settles t p given row key next) : p.used ⊆ next.used := by
  cases h with
  | keyless | supplied | left => exact List.Subset.refl _
  | drawn => exact List.subset_cons_self _ _

/-- A key that is generated was not in use, and is from then on. -/
theorem text_used (hsome : p.keys.isSome = true) (hlacks : t.Lacks given)
    (h : Settles t p given row key next) (rowId : Int64) :
    (key.getD (.int rowId)).text ∉ p.used ∧ (key.getD (.int rowId)).text ∈ next.used := by
  cases h with
  | keyless hnone =>
      obtain ⟨c, hc⟩ := hlacks.1
      cases hnone.symm.trans hc
  | supplied hc hv => exact absurd ((suppliedKey?_eq_some_iff hc).1 hv) (hlacks.2 _)
  | left _ _ hkeys =>
      rw [hkeys] at hsome
      cases hsome
  | drawn _ _ _ hdrawn => exact ⟨(drawUnused_eq_ok hdrawn).1, List.mem_cons_self⟩

/-- **The key of a row is assigned when it is settled**, if keys were only drawn before. -/
theorem isAssigned (hstart : Option.Rel (Draws t) start p.keys)
    (h : Settles t p given row key next) (rowId : Int64) :
    IsAssigned t start ⟨given, row, rowId, key.getD (.int rowId)⟩ := by
  -- Of the ways to settle a key each rules out the cases of the others: a row either brings its key
  -- along or lacks one, and keys are drawn only where there is a source of them.
  cases h with
  | keyless hnone =>
      have hno {c : Column} (hc : t.primaryKey? = some c) : False := by
        rw [hnone] at hc
        cases hc
      exact ⟨fun _ _ => rfl, fun _ => rfl, fun _ ⟨_, hc, _⟩ => (hno hc).elim,
        fun _ _ ⟨⟨_, hc⟩, _⟩ => (hno hc).elim, fun _ ⟨⟨_, hc⟩, _⟩ => (hno hc).elim⟩
  | @supplied c v hc hv =>
      have hbrings := (suppliedKey?_eq_some_iff hc).1 hv
      refine ⟨fun _ _ => rfl, fun hnone => ?_, fun w hw => ⟨hw, ?_⟩,
        fun _ _ hlacks => absurd hbrings (hlacks.2 v), fun _ hlacks => absurd hbrings (hlacks.2 v)⟩
      · cases hnone.symm.trans hc
      · exact Option.some.inj (hv.symm.trans ((suppliedKey?_eq_some_iff hc).2 hw))
  | @left c hc hv hkeys =>
      have hlacks := (suppliedKey?_eq_none_iff hc).1 hv
      refine ⟨fun name hname => Assoc.find?_erase_of_ne (hname c hc), fun _ => rfl,
        fun w hw => absurd hw (hlacks.2 w), ?_,
        fun _ _ => ⟨t.forall_primaryKey? hc Assoc.find?_erase_self, rfl⟩⟩
      rintro source rfl -
      rw [hkeys] at hstart
      cases hstart
  | @drawn c v source after hc hv hkeys hdrawn =>
      have hlacks := (suppliedKey?_eq_none_iff hc).1 hv
      rw [hkeys] at hstart
      refine ⟨fun name hname => Assoc.find?_insert_of_ne (hname c hc), fun hnone => ?_,
        fun w hw => absurd hw (hlacks.2 w), ?_, ?_⟩
      · cases hnone.symm.trans hc
      · rintro first rfl -
        refine ⟨t.forall_primaryKey? hc (Assoc.find?_insert_self _ _ _), ?_⟩
        cases hstart with
        | some hdraws => exact hdraws.isDrawn (drawUnused_eq_ok hdrawn).2.2
      · rintro rfl
        cases hstart

end Settles

variable {db after : Database Keys} {givens : List RowValues} {planned : List PlannedRow}
  {ids : List Value}

/-- **What is planned is assigned and inserted**, row by row; the keys that are generated are told
apart from those that were in use and from each other. -/
theorem Plans.exists_created (hplans : Plans t p givens planned next)
    (hstart : Option.Rel (Draws t) start p.keys) (h : addRows planned db = (.ok ids, after)) :
    ∃ created : List CreatedRow, created.map CreatedRow.given = givens ∧
      created.map CreatedRow.id = ids ∧ t.Inserts db.store created after.store ∧
      (∀ row ∈ created, IsAssigned t start row) ∧
      (p.keys.isSome = true →
        (∀ row ∈ created, t.Lacks row.given → row.id.text ∉ p.used) ∧
        created.Pairwise fun row other =>
          t.Lacks row.given → t.Lacks other.given → row.id.text ≠ other.id.text) := by
  induction hplans generalizing db ids with
  | nil =>
      obtain ⟨hids, rfl⟩ := Prod.mk.inj h
      rw [← Except.ok.inj hids]
      exact ⟨[], rfl, rfl, .nil _, by simp, fun _ => ⟨by simp, .nil⟩⟩
  | @cons p next last given row key givens planned hsettles _ _ ih =>
      obtain ⟨store, keys, hinsert, hrest, rfl⟩ := addRows_cons_eq_ok h
      obtain ⟨created, rfl, rfl, hinserts, hassigned, hapart⟩ := ih (hsettles.draws hstart) hrest
      refine ⟨⟨given, row, store.lastId, key.getD (.int store.lastId)⟩ :: created, rfl, rfl,
        .cons hinsert rfl hinserts,
        List.forall_mem_cons.2 ⟨hsettles.isAssigned hstart _, hassigned⟩, fun hsome => ?_⟩
      -- What is in use only grows, so that later keys differ from this one.
      obtain ⟨hunused, hpairwise⟩ := hapart (hsettles.isSome_keys.trans hsome)
      refine ⟨List.forall_mem_cons.2 ⟨fun hlacks => ?_, fun other hother hlacks => ?_⟩,
        .cons (fun other hother hlacks hlacks' => ?_) hpairwise⟩
      · exact (hsettles.text_used hsome hlacks _).1
      · exact fun hused => hunused other hother hlacks (hsettles.used_subset hused)
      · have hused := (hsettles.text_used hsome hlacks store.lastId).2
        exact ne_of_mem_of_not_mem hused (hunused other hother hlacks')

/-! ## Creating -/

variable {scoping : Scoping} {r : CreateRequest} {rel : Relation} {generates : Bool}

omit [KeyGenerator Keys] in
/-- The row id that is answered is the key that is stored in a table that is laid out as it is
defined. -/
theorem storesIds_of_addRows {created : List CreatedRow} (hcheck : t.check = .ok ())
    (hint : ∀ c, t.primaryKey? = some c → c.type = .int)
    (hrel : db.store.relation? t.name = some rel) (hlayout : t.IsLaidOutAs rel)
    (hplanned : List.Forall₂ (fun given row =>
      IsSettled t generates given row.statement.values row.key ∧
      t.Accepts row.statement.values ∧ row.statement.table = t.name)
      (created.map CreatedRow.given) planned)
    (h : addRows planned db = (.ok (created.map CreatedRow.id), after)) :
    t.StoresIds db.store created after.store := by
  obtain ⟨rel', added, hrel', hemptied, hrows, -, hcreated, -⟩ :=
    exists_rows_of_addRows hcheck hplanned hrel hlayout h
  refine ⟨rel, rel', added, hrel, hrel', hrows, ?_⟩
  rw [List.zip_map', List.forall₂_map_left_iff] at hcreated
  refine hcreated.imp fun row r hshown c hc => ?_
  rw [← Record.shown_congr hemptied] at hshown
  have hcolumns := List.forall₂_same.1 (List.forall₂_map_right_iff.1 hshown)
  obtain ⟨-, hvalue⟩ := hcolumns c (List.mem_of_find?_eq_some hc)
  have hkey : c.isKey = true := List.find?_some (p := Column.isKey) hc
  unfold Column.IsCreated at hvalue
  rw [if_pos ⟨hkey, .inl (hint c hc)⟩] at hvalue
  exact hvalue.1

/-- **Creating assigns keys.** One id is answered for each row, in order. The rows are inserted with
their keys assigned, all else as it was given; keys that are generated are told apart from all other
keys of the request. In a table whose key is a whole number, the ids that are answered without a
generator are the keys that are stored, if the table is stored with the columns that it is defined
with. -/
theorem isAssigned_of_create (h : create scoping r db = (.ok ids, after)) :
    ∃ t, ∃ created : List CreatedRow, db.catalog.table r.table = .ok t ∧
      created.map CreatedRow.given = r.rows ∧ created.map CreatedRow.id = ids ∧
      t.Inserts db.store created after.store ∧ (∀ row ∈ created, IsAssigned t db.keys row) ∧
      (db.keys.isSome = true → t.TellsApart created) ∧
      (db.keys = none → (∀ row ∈ r.rows, Assoc.IsOrdered row) → t.check = .ok () →
        (∀ c, t.primaryKey? = some c → c.type = .int) →
        (∃ rel, db.store.relation? t.name = some rel ∧ t.IsLaidOutAs rel) →
        t.StoresIds db.store created after.store) := by
  obtain ⟨t, planned, p, start, last, ht, hplanned, hadded, hstart, hlast, -⟩ := create_eq_ok h
  have hplans := plans_of_planRows hplanned
  obtain ⟨created, hgivens, rfl, hinserts, hassigned, hapart⟩ :=
    hplans.exists_created (Draws.rel_refl db.keys) hadded
  rw [hstart, ← hlast] at hinserts
  refine ⟨t, created, ht, hgivens, rfl, hinserts, hassigned, fun hsome => ?_, ?_⟩
  · obtain ⟨hunused, hpairwise⟩ := hapart hsome
    refine ⟨hpairwise, fun row hrow hlacks other hother v hbrings heq => ?_⟩
    -- The keys that rows bring along are in use from the start.
    refine hunused row hrow hlacks (heq ▸ text_mem_suppliedKeys ?_ hbrings)
    exact hgivens ▸ List.mem_map_of_mem hother
  · rintro hnone hordered hcheck hint ⟨rel, hrel, hlayout⟩
    have hsettled := hplans.isSettled hordered (hnone ▸ drawsNoNull_none)
    rw [← hgivens] at hsettled
    rw [← hstart] at hrel
    have hstores := storesIds_of_addRows hcheck hint hrel hlayout hsettled hadded
    rwa [hstart, ← hlast] at hstores

end Database

end Assignment

/-- A generator that deals the keys that it has, one after the other. -/
structure Deck where
  keys : List Value

instance : KeyGenerator Deck where
  draw deck t :=
    match deck.keys with
    | [] => (.error (.database (.keysExhausted t.name 0)), deck)
    | key :: keys => (.ok key, ⟨keys⟩)

namespace Database

/-- A deck with a key that it deals twice. -/
def deck : Deck := ⟨[.int 7, .int 3, .int 3, .int 9]⟩

/-- The database of takes, with keys that are dealt. -/
def takesDealt : Database Deck := takesOpened.withGenerator deck

/-- Three takes, of which the second brings a key along that is dealt before. -/
def threeTakes : CreateRequest :=
  ⟨"Take", [[("note", .string "dark")], [("id", .int 7)], [("id", .null), ("length", .int 3)]]⟩

set_option maxRecDepth 20000 in
/-- Keys that are dealt are passed over if they are in use; without them the store counts. -/
theorem isAssigned_of_create_takes :
    let dealt := (create .own threeTakes takesDealt).2
    let after := (create .own twoTakes takesOpened).2
    (create .own threeTakes takesDealt = (.ok [.int 3, .int 7, .int 9], dealt) ∧
      ∃ created : List CreatedRow, created.map CreatedRow.given = threeTakes.rows ∧
        created.map CreatedRow.id = [.int 3, .int 7, .int 9] ∧
        takeTable.Inserts takesOpened.store created dealt.store ∧
        (∀ row ∈ created, IsAssigned takeTable (some deck) row) ∧
        takeTable.TellsApart created) ∧
      create .own twoTakes takesOpened = (.ok [.int 1, .int 7], after) ∧
      ∃ created : List CreatedRow, created.map CreatedRow.given = twoTakes.rows ∧
        created.map CreatedRow.id = [.int 1, .int 7] ∧
        takeTable.StoresIds takesOpened.store created after.store := by
  intro dealt after
  have hdealt : (create .own threeTakes takesDealt).1 = .ok [.int 3, .int 7, .int 9] := by rfl
  have hdeals : create .own threeTakes takesDealt = (.ok [.int 3, .int 7, .int 9], dealt) :=
    Prod.ext hdealt rfl
  have hids : (create .own twoTakes takesOpened).1 = .ok [.int 1, .int 7] := by rfl
  have hcreate : create .own twoTakes takesOpened = (.ok [.int 1, .int 7], after) := Prod.ext hids rfl
  refine ⟨⟨hdeals, ?_⟩, hcreate, ?_⟩
  · obtain ⟨t, created, ht, hgivens, hids, hinserts, hassigned, hapart, -⟩ :=
      isAssigned_of_create hdeals
    obtain rfl : takeTable = t := Except.ok.inj ht
    exact ⟨created, hgivens, hids, hinserts, hassigned, hapart rfl⟩
  · obtain ⟨t, created, ht, hgivens, hids, -, -, -, hstores⟩ := isAssigned_of_create hcreate
    obtain rfl : takeTable = t := Except.ok.inj ht
    have hordered : ∀ row ∈ twoTakes.rows, Assoc.IsOrdered row := by
      unfold Assoc.IsOrdered twoTakes
      decide
    have hint : ∀ c, takeTable.primaryKey? = some c → c.type = .int :=
      takeTable.forall_primaryKey? rfl rfl
    have hbuild : Catalog.build takes.tables = .ok takes := by rfl
    have hdistinct : takes.tables.Pairwise fun t u => sameName t.name u.name = false := by decide
    have hlaidOut := isLaidOut_of_run hbuild hdistinct rfl openStore_takes (.refl takesOpened)
    exact ⟨created, hgivens, hids,
      hstores rfl hordered (by rfl) hint (hlaidOut.isLaidOutAs takeTable rfl)⟩

/-- A catalog with two tables whose names differ in case only. -/
def twins : Catalog where
  entries := [
    ("Shot",
      { name := "Shot"
        columns := [
          { name := "id", type := .int, nullable := true },
          { name := "name", type := .string, nullable := true }] }),
    ("shot",
      { name := "shot"
        columns := [
          { name := "id", type := .int, isKey := true },
          { name := "name", type := .string, nullable := true }] })]

/-- A database that was opened with the catalog in an empty store. -/
def twinsOpened : Database where
  catalog := twins
  store := { ((Store.empty 0).defineAll twins.definitions).2 with lastId := 0 }
  keys := none

set_option maxRecDepth 20000 in
/-- **An id may be answered that is not stored.** The second of two tables whose names differ in case
only is not created, and rows that are meant for it go to the first. -/
theorem not_stores_id_of_case :
    let after := (create .own ⟨"shot", [[("name", .string "A")]]⟩ twinsOpened).2
    Catalog.build twins.tables = .ok twins ∧
      (openStore {} twins ⟨0⟩ (Store.empty 0)).1 = .ok twinsOpened ∧ twinsOpened.keys = none ∧
      (∃ t c, twins.table "shot" = .ok t ∧ t.primaryKey? = some c ∧ c.name = "id" ∧ c.type = .int) ∧
      (create .own ⟨"shot", [[("name", .string "A")]]⟩ twinsOpened).1 = .ok [.int 1] ∧
      (read .own (.whole "shot" none) after).1
        = .ok [[⟨"id", .null⟩, ⟨"name", .string "A"⟩]] := by
  intro after
  have hmade : ((Store.empty 0).defineAll twins.definitions).1.isOk = true := by decide +kernel
  have hopen : openStore {} twins ⟨0⟩ (Store.empty 0)
      = (.ok twinsOpened, ((Store.empty 0).defineAll twins.definitions).2) :=
    openStore_of_defineAll hmade
  exact ⟨by rfl, by rw [hopen], rfl, ⟨_, _, rfl, rfl, rfl, rfl⟩, by rfl, by rfl⟩

end Database

end Tabula
