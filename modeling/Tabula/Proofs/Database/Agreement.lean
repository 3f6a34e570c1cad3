import Tabula.Proofs.Database.RoundTrip
import Tabula.Proofs.Database.Unique

/-!
# Reading, removing and setting rows under one filter

A filter selects the same rows of a table whether they are read, removed or set, and a request for one
is refused because of its filter if those for the others are. Main statement: `agree_of_run`. The two
exceptions are what the store does with a row that has the least id (`delete_least_key`) and with
patterns that are too long, which it refuses when it comes to compare a row with them.
-/

namespace Tabula

open Sql (Condition)
open Store (Relation Row checkClause matching sameName)
open Store.Relation (Assignment changedId idOfCell lastOf)

/-! ## Records that are set -/

/-- Whether a record is what another one is once values are set in it: columns that are named have
their values as the columns keep them, and all others what they had. -/
structure Record.IsSet (values : RowValues) (old new : Record) : Prop where
  named : ∀ c ∈ old.table.columns, ∀ v, Assoc.find? values c.name = some v →
    new.value c = c.type.kept v
  other : ∀ c ∈ old.table.columns, Assoc.find? values c.name = none → new.value c = old.value c

/-- What is set in a record does not depend on the other rows of its table. -/
theorem Record.IsSet.of_emptied {values : RowValues} {old : Record} {t : Table} {rel rel' : Relation}
    {r : Row} (h : Record.IsSet values old ⟨t, rel, r⟩) (hemptied : rel'.emptied = rel.emptied) :
    Record.IsSet values old ⟨t, rel', r⟩ := by
  have hrel : rel' = { rel with rows := rel'.rows } :=
    congrArg (fun emptied : Relation => { emptied with rows := rel'.rows }) hemptied
  rw [hrel]
  exact ⟨h.named, h.other⟩

namespace Table

variable {t : Table} {rel rel' : Relation} {values : RowValues} {assignment : Assignment} {r : Row}
  {j : Nat} {c : Column}

namespace IsLaidOutAs

/-- The column that is the row id shows the id that it is given. -/
theorem isGiven_changedId (h : t.IsLaidOutAs rel) (haccepts : t.Accepts values)
    (hordered : Assoc.IsOrdered values) (hbind : rel.bind values = .ok assignment)
    (hids : ∀ cell, lastOf assignment .rowId = some cell → ∃ id, idOfCell cell = .ok id)
    (hc : t.columns[j]? = some c) (hid : rel.idField = some j) (r : Row) :
    IsGiven values c (.int r.id) (.int (changedId assignment r)) := by
  have hlast := h.lastOf_eq haccepts (Store.Relation.binds_of_bind hbind) hc
  rw [Store.Relation.slotAt, if_pos hid, Assoc.find?_reverse hordered.nodup] at hlast
  unfold changedId
  constructor
  · intro v hv
    rw [hv] at hlast
    obtain ⟨d, hd, hname, haccept⟩ := haccepts _ (Assoc.mem_of_find? hv)
    obtain ⟨cell, hcell⟩ := ColumnType.exists_cell_of_accepts haccept
    have hkeeps := keeps_of_find? haccepts h hc hv hcell
    have hlast : lastOf assignment .rowId = some cell := hlast.trans hcell
    obtain ⟨id, hcellId⟩ := hids cell hlast
    rw [hlast]
    -- Of the values that the column accepts, null is no id.
    generalize (Store.field c.definition).affinity.store cell = stored at hkeeps
    rcases h.type_of_idField hid hc with htype | htype
    all_goals
      rw [htype] at hkeeps ⊢
      cases hkeeps with
      | null =>
          obtain rfl := Option.some.inj hcell
          cases hcellId
      | _ n =>
          obtain rfl := Option.some.inj hcell
          constructor
  · intro hnone
    rw [hnone] at hlast
    rw [hlast]
    rfl

/-- **A row that is set has in each column what it is given or, left out, what it had.** -/
theorem isGiven_changedRow (h : t.IsLaidOutAs rel) (haccepts : t.Accepts values)
    (hordered : Assoc.IsOrdered values) (hbind : rel.bind values = .ok assignment)
    (hids : ∀ cell, lastOf assignment .rowId = some cell → ∃ id, idOfCell cell = .ok id)
    (hr : t.IsRow rel r) (hc : t.columns[j]? = some c) {old : Cell} (hold : r.cells[j]? = some old) :
    ∃ cell, (rel.changedRow assignment r).cells[j]? = some cell ∧ IsGiven values c old cell := by
  obtain ⟨cell, hcell, hidCell, hgiven⟩ :=
    h.cell_changedRow haccepts (Store.Relation.binds_of_bind hbind) hc hold
  refine ⟨cell, hcell, ?_⟩
  by_cases hid : rel.idField = some j
  · obtain rfl : .int r.id = old := Option.some.inj ((hr.shows j hid).symm.trans hold)
    rw [hidCell hid]
    exact h.isGiven_changedId haccepts hordered hbind hids hc hid r
  · have hlast := hgiven hid
    constructor
    · intro v hv
      exact hlast.keeps v ((Assoc.find?_reverse hordered.nodup c.name).trans hv)
    · intro hnone
      exact hlast.eq_other ((Assoc.find?_reverse hordered.nodup c.name).trans hnone)

/-- A changed row has the values that are set, and the others as they were. -/
theorem isSet_changedRow (h : t.IsLaidOutAs rel) (haccepts : t.Accepts values)
    (hordered : Assoc.IsOrdered values) (hbind : rel.bind values = .ok assignment)
    (hids : ∀ cell, lastOf assignment .rowId = some cell → ∃ id, idOfCell cell = .ok id)
    (hr : t.IsRow rel r) :
    Record.IsSet values ⟨t, rel, r⟩ ⟨t, rel, rel.changedRow assignment r⟩ := by
  have hnew : t.IsRow rel (rel.changedRow assignment r) :=
    h.isRow_changedRow haccepts (Store.Relation.binds_of_bind hbind) hr
  have hcolumn : ∀ c ∈ t.columns, ∃ old cell, Record.value ⟨t, rel, r⟩ c = old.toValue c.type ∧
      Record.value ⟨t, rel, rel.changedRow assignment r⟩ c = cell.toValue c.type ∧
      IsGiven values c old cell := by
    intro c hc
    obtain ⟨j, hj⟩ := List.mem_iff_getElem?.1 hc
    obtain ⟨old, hold, -⟩ := hr.forms.exists_getElem?_left hj
    obtain ⟨cell, hcell, hgiven⟩ := h.isGiven_changedRow haccepts hordered hbind hids hr hj hold
    exact ⟨old, cell, h.value_eq hj hr hold, h.value_eq hj hnew hcell, hgiven⟩
  constructor
  · intro c hc v hv
    obtain ⟨old, cell, -, hvalue, hgiven⟩ := hcolumn c hc
    rw [hvalue]
    exact (hgiven.keeps v hv).toValue_eq
  · intro c hc hnone
    obtain ⟨old, cell, hold, hvalue, hgiven⟩ := hcolumn c hc
    rw [hvalue, hold, hgiven.eq_other hnone]

end IsLaidOutAs

/-- The rows of a stored table for which a filter is true. -/
def selected (t : Table) (rel : Relation) (filters : Option Json) : List Row :=
  rel.rows.filter fun r => Record.passes ⟨t, rel, r⟩ filters

/-- Values that a request can ask to be set in a table. -/
structure CanSet (t : Table) (values : RowValues) : Prop where
  ordered : Assoc.IsOrdered values
  ne_nil : values ≠ []
  checked : Plan.checkValues t values = .ok ()

end Table

namespace Database

variable {db after : Database} {t : Table} {rel : Relation} {filters : Option Json}
  {condition : Option Condition} {values : RowValues} {scoping : Scoping}

/-! ## Databases that are ready -/

/-- Whether a database is typed and can be written to, each of its tables can be created, and their rows
are kept. -/
structure IsReady (db : Database) : Prop extends db.IsTyped where
  isWritable : db.store.checkWritable = .ok ()
  isDefinable : ∀ t, db.catalog.table? t.name = some t → t.IsDefinable
  isKept : db.Holds Table.IsKept

/-- **A database that is opened is ready, and stays so in every run**, if its tables are created in an
empty store and no two of them have the same name. -/
theorem isReady_of_run {tables : List Table} {catalog : Catalog} {c : Configuration}
    {entropy : Entropy} {now : Int64} {store : Store} {start : Database}
    (hbuild : Catalog.build tables = .ok catalog)
    (hdistinct : tables.Pairwise fun t u => sameName t.name u.name = false)
    (hcreates : c.createsTables = true)
    (hopen : openStore c catalog entropy (Store.empty now) = (.ok start, store))
    (hrun : Run start db) : db.IsReady := by
  have hopened := isTyped_of_openStore hbuild hdistinct hcreates hopen
  obtain ⟨htyped, hkept⟩ := hopened.holds_of_steps
    (fun t rel rel' hconsistent htypes hchange h => h.change hconsistent htypes hchange)
    (holds_isKept_of_openStore hcreates hopen hopened) hrun.steps
  refine ⟨htyped, ?_, ?_, hkept⟩
  · obtain ⟨-, hdefined, hstore⟩ := openStore_eq_ok hcreates hopen
    have hstanding : db.store.standing = .writable := by
      rw [hrun.steps.isBeside.standing, hstore]
      exact (Store.extends_defineAll hdefined).standing
    exact if_pos hstanding
  · exact (isLaidOut_of_run hbuild hdistinct hcreates hopen hrun).isDefinable

/-! ## Statements of one table -/

/-- A statement that runs in a transaction of its own does what it does in an open one. -/
theorem within_change {run : Store → Except Error (Store × Nat)}
    (hscope : scoping = .joined ∨ db.inTransaction = false) :
    within scoping (change run) db = change run db := by
  cases scoping with
  | joined => rfl
  | own =>
      obtain ⟨catalog, store, keys, inTransaction⟩ := db
      obtain rfl : inTransaction = false := by simpa using hscope
      show transaction (change run) _ = _
      unfold transaction change
      rw [if_neg (by simp)]
      dsimp only
      cases run store with
      | ok result => rfl
      | error e => rfl

/-- A statement that fails changes nothing. -/
theorem change_eq_error {run : Store → Except Error (Store × Nat)} {e : Error}
    (h : run db.store = .error e) : change run db = (.error e, db) := by
  unfold change
  rw [h]

/-- A statement that succeeds changes the store to what it made of it. -/
theorem change_eq_ok_iff {run : Store → Except Error (Store × Nat)} {count : Nat} :
    change run db = (.ok count, after) ↔
      ∃ store, run db.store = .ok (store, count) ∧ after = { db with store } := by
  unfold change
  cases run db.store with
  | ok result =>
      obtain ⟨store, n⟩ := result
      constructor
      · intro h
        obtain ⟨hcount, rfl⟩ := Prod.mk.inj h
        rw [Except.ok.inj hcount]
        exact ⟨store, rfl, rfl⟩
      · rintro ⟨_, heq, rfl⟩
        obtain ⟨rfl, rfl⟩ := Prod.mk.inj (Except.ok.inj heq)
        rfl
  | error e =>
      constructor
      · intro h
        cases (Prod.mk.inj h).1
      · rintro ⟨_, heq, -⟩
        cases heq

/-- A deletion in a table of the catalog is planned as its filter. -/
theorem plan_delete (ht : db.catalog.table t.name = .ok t) :
    Plan.delete db.catalog ⟨t.name, filters⟩
      = (Filter.conditionOfJson ⟨t, []⟩ filters).map fun condition => ⟨t.name, condition⟩ := by
  unfold Plan.delete
  dsimp only
  rw [ht, Except.ok_bind]
  cases Filter.conditionOfJson ⟨t, []⟩ filters <;> rfl

/-- So is an update of values that can be set. -/
theorem plan_update (ht : db.catalog.table t.name = .ok t) (hset : t.CanSet values) :
    Plan.update db.catalog ⟨t.name, values, filters⟩
      = (Filter.conditionOfJson ⟨t, []⟩ filters).map fun condition =>
        ⟨t.name, values, condition⟩ := by
  have hvalues : values.isEmpty = false := by
    rw [List.isEmpty_eq_false_iff]
    exact hset.ne_nil
  unfold Plan.update
  dsimp only
  rw [ht, Except.ok_bind, hvalues, hset.checked]
  cases Filter.conditionOfJson ⟨t, []⟩ filters <;> rfl

/-- A delete request with a condition is its statement. -/
theorem delete_eq_change (ht : db.catalog.table t.name = .ok t)
    (hcondition : Filter.conditionOfJson ⟨t, []⟩ filters = .ok condition)
    (hscope : scoping = .joined ∨ db.inTransaction = false) :
    delete scoping ⟨t.name, filters⟩ db = change (·.delete ⟨t.name, condition⟩) db := by
  unfold delete
  rw [plan_delete ht, hcondition]
  exact within_change hscope

/-- An update request with a condition is its statement, if its values can be set. -/
theorem update_eq_change (ht : db.catalog.table t.name = .ok t) (hset : t.CanSet values)
    (hcondition : Filter.conditionOfJson ⟨t, []⟩ filters = .ok condition)
    (hscope : scoping = .joined ∨ db.inTransaction = false) :
    update scoping ⟨t.name, values, filters⟩ db
      = change (·.update ⟨t.name, values, condition⟩) db := by
  unfold update
  rw [plan_update ht hset, hcondition]
  exact within_change hscope

/-- Whether a request to set values fails because these and its filter have too many parameters
together. -/
def Overloads {α : Type} (db : Database) (t : Table) (values : RowValues) (filters : Option Json)
    (outcome : Except Error α × Database) : Prop :=
  (∃ condition, Filter.conditionOfJson ⟨t, []⟩ filters = .ok condition ∧
      Store.maxParameters < values.length + (Sql.parameters (Condition.clause condition)).length) ∧
    outcome = (.error (.storage .tooManyParameters), db)

namespace IsReady

/-! ## Rows that a condition selects -/

section Table

variable (h : db.IsReady) (ht : db.catalog.table? t.name = some t)
  (hrel : db.store.relation? t.name = some rel)
  (hcondition : Filter.conditionOfJson ⟨t, []⟩ filters = .ok condition)

include h ht hrel hcondition

/-- Rows are matched, or the filter has a pattern that is too long and fails for it. -/
theorem matching_cases : (∃ rows arrangement, matching rel condition = .ok (rows, arrangement)) ∨
    Filter.hasLongPattern filters = true ∧
      matching rel condition = .error (.storage .patternTooLong) := by
  obtain ⟨checks, hchecks, -⟩ :=
    exists_checks_of_whole h.toFits (Catalog.table_eq_ok_iff.2 ht) hrel hcondition
  cases hmatching : matching rel condition with
  | ok found => exact .inl ⟨found.1, found.2, rfl⟩
  | error e =>
      obtain rfl := Store.matching_eq_error hmatching hchecks
      refine .inr ⟨?_, rfl⟩
      cases hlong : Filter.hasLongPattern filters with
      | true => rfl
      | false =>
          obtain ⟨found, hfound⟩ := Store.exists_matching hchecks
            (Filter.mayHaveLongPattern_of_filter hcondition hchecks hlong _)
          cases hfound.symm.trans hmatching

/-- **The rows that match are those for which the filter is true.** -/
theorem perm_selected (hfinds : ∀ r ∈ db.records t.name, r.isPassedOver filters = false)
    {rows : List Row} {arrangement : Store.Access.Arrangement}
    (hmatching : matching rel condition = .ok (rows, arrangement)) :
    rows.Perm (t.selected rel filters) := by
  obtain ⟨checks, hchecks, hsearchable, hrows⟩ :=
    exists_checks_of_whole h.toFits (Catalog.table_eq_ok_iff.2 ht) hrel hcondition
  unfold Table.selected
  rw [← hrows]
  exact Store.perm_of_matching hmatching hchecks (hsearchable hfinds)

/-! ## Requests that are refused -/

/-- Rows are removed unless the condition is too large or a pattern too long. -/
theorem delete_cases (hscope : scoping = .joined ∨ db.inTransaction = false) :
    (∃ e, checkClause 0 condition = .error e ∧
        delete scoping ⟨t.name, filters⟩ db = (.error e, db)) ∨
      (checkClause 0 condition = .ok () ∧
        ((∃ count after, delete scoping ⟨t.name, filters⟩ db = (.ok count, after)) ∨
          db.FailsOverlong filters (delete scoping ⟨t.name, filters⟩ db))) := by
  have hchangeable := Store.changeable_of_relation? h.isSound h.isWritable hrel
  rw [delete_eq_change (Catalog.table_eq_ok_iff.2 ht) hcondition hscope]
  unfold change Store.delete
  rw [(h.isDefinable t ht).checkDelete_eq]
  dsimp only
  rw [hchangeable, Except.ok_bind]
  cases checkClause 0 condition with
  | error e => exact .inl ⟨e, rfl, rfl⟩
  | ok _ =>
      refine .inr ⟨rfl, ?_⟩
      rcases h.matching_cases ht hrel hcondition with ⟨rows, arrangement, hmatching⟩ | ⟨hlong, hmatching⟩
      · rw [hmatching]
        exact .inl ⟨_, _, rfl⟩
      · rw [hmatching]
        exact .inr ⟨hlong, rfl⟩

/-- Rows are set unless the condition is too large or a pattern too long, there are too many
parameters together with the values, or the data of a row keep it from being set. -/
theorem update_cases (hset : t.CanSet values)
    (hscope : scoping = .joined ∨ db.inTransaction = false) :
    (∃ e, checkClause 0 condition = .error e ∧
        update scoping ⟨t.name, values, filters⟩ db = (.error e, db)) ∨
      db.Overloads t values filters (update scoping ⟨t.name, values, filters⟩ db) ∨
      (checkClause 0 condition = .ok () ∧
        ((∃ count after, update scoping ⟨t.name, values, filters⟩ db = (.ok count, after)) ∨
          (∃ cause, update scoping ⟨t.name, values, filters⟩ db = (.error (.database cause), db)) ∨
          db.FailsOverlong filters (update scoping ⟨t.name, values, filters⟩ db))) := by
  have hchangeable := Store.changeable_of_relation? h.isSound h.isWritable hrel
  have haccepts := Plan.exists_of_checkValues hset.checked
  obtain ⟨assignment, hbind⟩ := (h.types_of_relation? ht hrel).exists_bind haccepts
  have hcolumns : ∀ entry ∈ values, ∃ c ∈ t.columns, c.name = entry.1 := by
    intro entry hentry
    obtain ⟨c, hc, hname, -⟩ := haccepts entry hentry
    exact ⟨c, hc, hname⟩
  -- An update has the parameters of its values besides those of the condition.
  have hsize := (h.isDefinable t ht).checkUpdate_eq hcolumns hset.ordered.nodup condition
  have hfails {e : Error} (hclause : checkClause values.length condition = .error e) :
      db.store.update ⟨t.name, values, condition⟩ = .error e := by
    unfold Store.update
    rw [hsize, hclause]
    rfl
  rw [update_eq_change (Catalog.table_eq_ok_iff.2 ht) hset hcondition hscope]
  rcases Store.checkClause_cases values.length condition with hsame | ⟨hmany, hclause⟩
  · rw [hsame] at hsize hfails
    cases hclause : checkClause 0 condition with
    | error e => exact .inl ⟨e, rfl, change_eq_error (hfails hclause)⟩
    | ok _ =>
        rw [hclause] at hsize
        refine .inr (.inr ⟨rfl, ?_⟩)
        rcases h.matching_cases ht hrel hcondition with
          ⟨rows, arrangement, hmatching⟩ | ⟨hlong, hmatching⟩
        · rcases Store.update_cases hsize hchangeable hbind hmatching with
            ⟨cause, hrefused⟩ | ⟨_, rel', -, -, hdone⟩
          · exact .inr (.inl ⟨cause, change_eq_error hrefused⟩)
          · exact .inl ⟨_, _, change_eq_ok_iff.2 ⟨_, hdone, rfl⟩⟩
        · refine .inr (.inr ⟨hlong, change_eq_error ?_⟩)
          unfold Store.update
          rw [hsize, Except.ok_bind, hchangeable, Except.ok_bind, hbind, Except.ok_bind, hmatching]
          rfl
  · exact .inr (.inl ⟨⟨condition, hcondition, hmany⟩, change_eq_error (hfails hclause)⟩)

end Table

end IsReady

/-- Whether requests with a filter are refused alike: one for whole rows, one to remove rows and all to
set values fail with the same error, or none fails because of the filter, except that each fails if it
compares a row with a pattern that is too long. Values may besides be refused for what the data are,
and if they have too many parameters together with the filter. -/
inductive IsRefusedAlike (db : Database) (scoping : Scoping) (t : Table) (filters : Option Json) : Prop
  | refused {e : Error} (read_eq : read scoping (.whole t.name filters) db = (.error e, db))
    (delete_eq : delete scoping ⟨t.name, filters⟩ db = (.error e, db))
    (update_eq : ∀ values, t.CanSet values →
      update scoping ⟨t.name, values, filters⟩ db = (.error e, db) ∨
        db.Overloads t values filters (update scoping ⟨t.name, values, filters⟩ db)) :
    IsRefusedAlike db scoping t filters
  | accepted
    (read_cases : (∃ rows, read scoping (.whole t.name filters) db = (.ok rows, db)) ∨
      db.FailsOverlong filters (read scoping (.whole t.name filters) db))
    (delete_cases : (∃ count after, delete scoping ⟨t.name, filters⟩ db = (.ok count, after)) ∨
      db.FailsOverlong filters (delete scoping ⟨t.name, filters⟩ db))
    (update_cases : ∀ values, t.CanSet values →
      (∃ count after, update scoping ⟨t.name, values, filters⟩ db = (.ok count, after)) ∨
        (∃ cause, update scoping ⟨t.name, values, filters⟩ db = (.error (.database cause), db)) ∨
        db.FailsOverlong filters (update scoping ⟨t.name, values, filters⟩ db) ∨
        db.Overloads t values filters (update scoping ⟨t.name, values, filters⟩ db)) :
    IsRefusedAlike db scoping t filters

namespace IsReady

/-- **A filter that is refused is refused alike** for rows that are read, removed and set. -/
theorem isRefusedAlike (h : db.IsReady) (ht : db.catalog.table? t.name = some t)
    (hscope : scoping = .joined ∨ db.inTransaction = false) :
    db.IsRefusedAlike scoping t filters := by
  have htable : db.catalog.table t.name = .ok t := Catalog.table_eq_ok_iff.2 ht
  obtain ⟨rel, hrel, -⟩ := h.types t ht
  cases hcondition : Filter.conditionOfJson ⟨t, []⟩ filters with
  | error e =>
      refine .refused (e := e) ?_ ?_ fun values hset => .inl ?_
      · unfold read
        rw [plan_whole htable, hcondition]
        rfl
      · unfold delete
        rw [plan_delete htable, hcondition]
        rfl
      · unfold update
        rw [plan_update htable hset, hcondition]
        rfl
  | ok condition =>
      have hread := read_whole_cases h.toFits htable (h.isDefinable t ht) hcondition hscope
      have hdelete := h.delete_cases ht hrel hcondition hscope
      have hupdate := fun values (hset : t.CanSet values) =>
        h.update_cases ht hrel hcondition hset hscope
      -- All of them are refused or none, as the size of the condition is the same for all.
      cases hclause : checkClause 0 condition with
      | error e =>
          simp only [hclause, Except.error.injEq, exists_eq_left', reduceCtorEq, false_and, or_false]
            at hread hdelete hupdate
          exact .refused hread hdelete hupdate
      | ok _ =>
          simp only [hclause, reduceCtorEq, false_and, exists_false, false_or, true_and]
            at hread hdelete hupdate
          refine .accepted hread hdelete fun values hset => ?_
          rcases hupdate values hset with hmany | hdone | hrefused | hlong
          · exact .inr (.inr (.inr hmany))
          · exact .inl hdone
          · exact .inr (.inl hrefused)
          · exact .inr (.inr (.inl hlong))

end IsReady

/-! ## Rows that are read, removed and set -/

/-- Whether a database is another one in which a table is stored as it was, but for its rows, and every
other table as it was. -/
structure IsWith (before : Database) (t : Table) (rel : Relation) (after : Database) : Prop where
  frame : Frame before after
  own : after.store.relation? t.name = some rel
  others : ∀ name, sameName t.name name = false →
    after.store.relation? name = before.store.relation? name

/-- Whether requests that succeed select the rows of a stored table for which a filter is true. A
request for whole rows gives these. Removing rows answers how many they are and leaves exactly the
others. Setting values answers how many they are, sets the values in each of them and leaves the
others as they were. -/
structure SelectsAlike (db : Database) (scoping : Scoping) (t : Table) (filters : Option Json)
    (rel : Relation) : Prop where
  read : ∀ {rows after}, read scoping (.whole t.name filters) db = (.ok rows, after) →
    after = db ∧ rows.Perm ((t.selected rel filters).map fun r => Record.shown ⟨t, rel, r⟩)
  delete : ∀ {count after}, delete scoping ⟨t.name, filters⟩ db = (.ok count, after) →
    count = (t.selected rel filters).length ∧
      db.IsWith t { rel with rows := rel.rows.filter fun r => !Record.passes ⟨t, rel, r⟩ filters }
        after
  update : ∀ {values count after}, t.CanSet values →
    update scoping ⟨t.name, values, filters⟩ db = (.ok count, after) →
      count = (t.selected rel filters).length ∧
        ∃ rel' rows, db.IsWith t rel' after ∧ rel'.rows.Perm rows ∧
          List.Forall₂ (fun old new =>
            if Record.passes ⟨t, rel, old⟩ filters then
              Record.IsSet values ⟨t, rel, old⟩ ⟨t, rel', new⟩
            else new = old) rel.rows rows

/-- A database with a table in place of one that differs in its rows has the rows of the new one. -/
theorem isWith_replace {rel' : Relation} (hrel : db.store.relation? t.name = some rel)
    (hemptied : rel'.emptied = rel.emptied) :
    db.IsWith t rel' { db with store := db.store.replace rel' } := by
  have hname : rel'.emptied.name = rel.emptied.name := congrArg Relation.name hemptied
  have hname : rel'.name = rel.name := hname
  have hframe := Store.frame_replace hrel hemptied
  exact ⟨⟨rfl, rfl, hframe.entries, hframe.now, hframe.standing, hframe.emptied⟩,
    Store.relation?_replace_self hrel hname,
    fun name hother => Store.relation?_replace_other hrel hname hother⟩

namespace IsReady

section Table

variable {count : Nat} (h : db.IsReady) (ht : db.catalog.table? t.name = some t)
  (hrel : db.store.relation? t.name = some rel)
  (hfinds : ∀ r ∈ db.records t.name, r.isPassedOver filters = false)
  (hscope : scoping = .joined ∨ db.inTransaction = false)

include h ht hrel hfinds hscope

/-- A deletion counts the rows that pass the filter, and leaves the others. -/
theorem isWith_of_delete (hdelete : delete scoping ⟨t.name, filters⟩ db = (.ok count, after)) :
    count = (t.selected rel filters).length ∧
      db.IsWith t { rel with rows := rel.rows.filter fun r => !Record.passes ⟨t, rel, r⟩ filters }
        after := by
  have htable : db.catalog.table t.name = .ok t := Catalog.table_eq_ok_iff.2 ht
  cases hcondition : Filter.conditionOfJson ⟨t, []⟩ filters with
  | error e =>
      unfold Database.delete at hdelete
      rw [plan_delete htable, hcondition] at hdelete
      cases (Prod.mk.inj hdelete).1
  | ok condition =>
      rw [delete_eq_change htable hcondition hscope] at hdelete
      obtain ⟨store, hstore, rfl⟩ := change_eq_ok_iff.1 hdelete
      obtain ⟨found, rows, arrangement, hfound, hmatching, rfl, rfl⟩ := Store.delete_eq_ok hstore
      obtain rfl : found = rel := Option.some.inj (hfound.symm.trans hrel)
      have hrows := h.perm_selected ht hrel hcondition hfinds hmatching
      have hunique := (h.isKept.of_relation? ht hrel).unique.ids
      rw [Store.filter_ids_eq hunique hrows]
      exact ⟨hrows.length_eq, isWith_replace hrel rfl⟩

/-- An update counts the rows that pass the filter, sets the values in them, and leaves the others.
-/
theorem isWith_of_update (hset : t.CanSet values)
    (hupdate : update scoping ⟨t.name, values, filters⟩ db = (.ok count, after)) :
    count = (t.selected rel filters).length ∧
      ∃ rel' rows, db.IsWith t rel' after ∧ rel'.rows.Perm rows ∧
        List.Forall₂ (fun old new =>
          if Record.passes ⟨t, rel, old⟩ filters then
            Record.IsSet values ⟨t, rel, old⟩ ⟨t, rel', new⟩
          else new = old) rel.rows rows := by
  have htable : db.catalog.table t.name = .ok t := Catalog.table_eq_ok_iff.2 ht
  cases hcondition : Filter.conditionOfJson ⟨t, []⟩ filters with
  | error e =>
      unfold Database.update at hupdate
      rw [plan_update htable hset, hcondition] at hupdate
      cases (Prod.mk.inj hupdate).1
  | ok condition =>
      rw [update_eq_change htable hset hcondition hscope] at hupdate
      obtain ⟨store, hstore, rfl⟩ := change_eq_ok_iff.1 hupdate
      obtain ⟨found, assignment, rows, arrangement, ids, rel', hfound, hbind, hmatching, hids, hdone,
        rfl, rfl⟩ := Store.update_eq_ok hstore
      obtain rfl : found = rel := Option.some.inj (hfound.symm.trans hrel)
      have hrows := h.perm_selected ht hrel hcondition hfinds hmatching
      have hkept := h.isKept.of_relation? ht hrel
      have hlayout := (h.types_of_relation? ht hrel).toIsLaidOutAs
      have haccepts := Plan.exists_of_checkValues hset.checked
      have hemptied := Relation.emptied_updateRows hdone
      refine ⟨hrows.length_eq, rel', _, isWith_replace hrel hemptied,
        (Store.perm_withSet hmatching hkept.unique.ids hids hdone).symm, ?_⟩
      -- A row is set if its id is among those of the rows that match, which are those that pass.
      refine List.forall₂_map_right_iff.2 (List.forall₂_same.2 fun r hr => ?_)
      have hmem := Store.mem_ids_iff hkept.unique.ids hrows hr
      by_cases hpasses : Record.passes ⟨t, found, r⟩ filters = true
      · have hid := hmem.2 hpasses
        rw [if_pos hpasses, if_pos hid]
        have hne : ids ≠ [] := List.ne_nil_of_mem (hids.mem_iff.2 hid)
        have hfoundIds : ∀ id ∈ ids, ∃ r ∈ found.rows, r.id = id := by
          intro id hid
          obtain ⟨r, hr, hrid⟩ := List.mem_map.1 (hids.mem_iff.1 hid)
          exact ⟨r, Store.mem_of_matching hmatching hr, hrid⟩
        have hset := hlayout.isSet_changedRow haccepts hset.ordered hbind
          (fun _ hcell => Store.Relation.exists_id_of_updateRows hne hfoundIds hdone hcell)
          (hkept.rows r hr)
        exact hset.of_emptied hemptied
      · rw [if_neg hpasses, if_neg fun hid => hpasses (hmem.1 hid)]

end Table

/-- **The rows that a filter selects are the same** for reading, removing and setting. -/
theorem selectsAlike (h : db.IsReady) (ht : db.catalog.table? t.name = some t)
    (hrel : db.store.relation? t.name = some rel)
    (hfinds : ∀ r ∈ db.records t.name, r.isPassedOver filters = false)
    (hscope : scoping = .joined ∨ db.inTransaction = false) :
    db.SelectsAlike scoping t filters rel := by
  constructor
  · intro rows after hread
    obtain ⟨hafter, hperm⟩ := perm_of_read_whole h.toFits hfinds hscope hread
    rw [records_eq ht hrel, List.filter_map, List.map_map] at hperm
    exact ⟨hafter, hperm⟩
  · exact h.isWith_of_delete ht hrel hfinds hscope
  · exact h.isWith_of_update ht hrel hfinds hscope

end IsReady

/-- **Reading, removing and setting agree on the rows that a filter selects.** If no two tables of a
catalog have the same name, and they are created in an empty store, then after any run and for every
table and filter: requests that succeed select the same rows, unless the filter passes over a row, and
touch nothing else; and the filter is refused for all of them with the same error or for none, except
for patterns that are too long. -/
theorem agree_of_run {tables : List Table} {catalog : Catalog} {c : Configuration}
    {entropy : Entropy} {now : Int64} {store : Store} {start db : Database}
    (hbuild : Catalog.build tables = .ok catalog)
    (hdistinct : tables.Pairwise fun t u => sameName t.name u.name = false)
    (hcreates : c.createsTables = true)
    (hopen : openStore c catalog entropy (Store.empty now) = (.ok start, store))
    (hrun : Run start db) {t : Table} (ht : t ∈ tables) (filters : Option Json) {scoping : Scoping}
    (hscope : scoping = .joined ∨ db.inTransaction = false) :
    db.IsRefusedAlike scoping t filters ∧ ∃ rel, db.store.relation? t.name = some rel ∧
      ((∀ r ∈ db.records t.name, r.isPassedOver filters = false) →
        db.SelectsAlike scoping t filters rel) := by
  have hready := isReady_of_run hbuild hdistinct hcreates hopen hrun
  have hcatalog : db.catalog = catalog := by
    rw [hrun.steps.isBeside.catalog, (openStore_eq_ok hcreates hopen).1]
  have htable : db.catalog.table? t.name = some t := by
    rw [hcatalog]
    exact Catalog.table?_of_mem hbuild ((Catalog.tables_perm_of_build hbuild).mem_iff.2 ht)
  obtain ⟨rel, hrel, -⟩ := hready.types t htable
  exact ⟨hready.isRefusedAlike htable hscope, rel, hrel,
    fun hfinds => hready.selectsAlike htable hrel hfinds hscope⟩

/-- A filter for the books that are in a place. -/
def inPlace : Option Json := some (.object [("ge", .object [("place", .int 1)])])

/-- One of three books is in a place: it is read, removed and given a code. -/
theorem agree_of_run_books :
    let coded : RowValues := [("code", .string "A")]
    Catalog.build books.tables = .ok books ∧
      (openStore {} books ⟨0⟩ (Store.empty 0)).1 = .ok booksOpened ∧ Run booksOpened booksAdded ∧
      (read .own (.whole "Book" inPlace) booksAdded).1.toOption.map List.length = some 1 ∧
      (delete .own ⟨"Book", inPlace⟩ booksAdded).1.toOption = some 1 ∧
      bookTable.CanSet coded ∧
      (update .own ⟨"Book", coded, inPlace⟩ booksAdded).1.toOption = some 1 ∧
      booksAdded.IsRefusedAlike .own bookTable inPlace ∧
      ∃ rel, booksAdded.store.relation? "Book" = some rel ∧ rel.rows.length = 3 ∧
        booksAdded.SelectsAlike .own bookTable inPlace rel := by
  intro coded
  have hchecked : booksAdded.inTransaction = false ∧
      (booksAdded.store.relation? "Book").map (·.rows.length) = some 3 ∧
      ((booksAdded.records "Book").all fun r => !r.isPassedOver inPlace) = true ∧
      (read .own (.whole "Book" inPlace) booksAdded).1.toOption.map List.length = some 1 ∧
      (delete .own ⟨"Book", inPlace⟩ booksAdded).1.toOption = some 1 ∧
      (update .own ⟨"Book", coded, inPlace⟩ booksAdded).1.toOption = some 1 := by decide +kernel
  obtain ⟨hclosed, hlength, hfinds, hread, hdelete, hupdate⟩ := hchecked
  have hbuild : Catalog.build books.tables = .ok books := by rfl
  have hdistinct : books.tables.Pairwise fun t u => sameName t.name u.name = false := by decide
  have hrun : Run booksOpened booksAdded := .execute .own _ (.refl _)
  have hmem : bookTable ∈ books.tables := List.mem_cons_self
  have hset : bookTable.CanSet coded := by
    refine ⟨?_, List.cons_ne_nil _ _, by rfl⟩
    unfold Assoc.IsOrdered coded
    decide
  obtain ⟨hrefused, rel, hrel, hselects⟩ :=
    agree_of_run hbuild hdistinct rfl openStore_books hrun hmem inPlace (.inr hclosed)
  have hrows : rel.rows.length = 3 := by
    change booksAdded.store.relation? "Book" = some rel at hrel
    rw [hrel] at hlength
    exact Option.some.inj hlength
  refine ⟨hbuild, by rw [openStore_books], hrun, hread, hdelete, hset, hupdate, hrefused, rel, hrel,
    hrows, hselects fun r hr => ?_⟩
  simpa using List.all_eq_true.1 hfinds r hr

/-- A table of cues, of which no two are on one track. -/
def cueTable : Table where
  name := "Cue"
  columns := [
    { name := "id", type := .int, isKey := true },
    { name := "beat", type := .int },
    { name := "track", type := .int }]
  unique := [⟨"spot", ["beat", "track"]⟩, ⟨"lane", ["track"]⟩]

/-- A catalog with the table of cues. -/
def cues : Catalog where
  entries := [("Cue", cueTable)]

/-- A database that was opened with the catalog in an empty store. -/
def cuesOpened : Database where
  catalog := cues
  store := { ((Store.empty 0).defineAll cues.definitions).2 with lastId := 0 }
  keys := none

/-- The database after a cue is added that has the least number of 64 bits for its key. -/
def leastAdded : Database :=
  let cue : RowValues := [("beat", .int 1), ("id", .int Int64.minValue), ("track", .int 2)]
  (execute .own (.create ⟨"Cue", [cue]⟩) cuesOpened).2

/-- A filter for the cues on the first tracks whose key is the float of the least number, or above 1. -/
def leastOrLate : Option Json :=
  some (.object [
    ("lt", .object [("track", .int 3)]),
    ("or", .array [
      .object [("in", .object [("id", .array [.float (Float.ofBits 0xC3E0000000000000)])])],
      .object [("ge", .object [("id", .int 2)])]])])

/-- **A row may be removed that is not read.** The cue with the least key is passed over where rows are
searched for by their ids, as they are when they are read, and not where they are searched for by
their tracks, as they are when they are removed. -/
theorem delete_least_key :
    Catalog.build cues.tables = .ok cues ∧
      (cueTable.columns.Pairwise fun a b => sameName a.name b.name = false) ∧
      (openStore {} cues ⟨0⟩ (Store.empty 0)).1 = .ok cuesOpened ∧ Run cuesOpened leastAdded ∧
      (read .own (.whole "Cue" leastOrLate) leastAdded).1 = .ok [] ∧
      (delete .own ⟨"Cue", leastOrLate⟩ leastAdded).1 = .ok 1 ∧
      ¬ ∃ rows count, (read .own (.whole "Cue" leastOrLate) leastAdded).1 = .ok rows ∧
        (delete .own ⟨"Cue", leastOrLate⟩ leastAdded).1 = .ok count ∧ count = rows.length := by
  have hchecked : (read .own (.whole "Cue" leastOrLate) leastAdded).1.toOption.map List.length = some 0 ∧
      (delete .own ⟨"Cue", leastOrLate⟩ leastAdded).1.toOption = some 1 := by decide +kernel
  obtain ⟨hcount, hdelete⟩ := hchecked
  rw [Except.toOption_eq_some_iff] at hdelete
  have hread : (read .own (.whole "Cue" leastOrLate) leastAdded).1 = .ok [] := by
    obtain ⟨rows, hrows, hlength⟩ := Option.map_eq_some_iff.1 hcount
    rw [Except.toOption_eq_some_iff.1 hrows, List.eq_nil_of_length_eq_zero hlength]
  have hopen : openStore {} cues ⟨0⟩ (Store.empty 0)
      = (.ok cuesOpened, ((Store.empty 0).defineAll cues.definitions).2) :=
    openStore_of_defineAll (by decide +kernel)
  refine ⟨by rfl, by decide, by rw [hopen], .execute .own _ (.refl _), hread, hdelete, ?_⟩
  rintro ⟨rows, count, hrows, hcount, hsame⟩
  obtain rfl := Except.ok.inj (hread.symm.trans hrows)
  obtain rfl := Except.ok.inj (hdelete.symm.trans hcount)
  cases hsame

end Database

end Tabula
