import Tabula.Proofs.Database.Stepwise
import Tabula.Proofs.Query.Plan
import Tabula.Proofs.Store.Revised

/-!
# Operations on one table

A statement that changes rows looks at one table of the store, and at nothing else that any statement
could change; all that it does is to replace this table. Main statements: what is true of statements is
true of commands, if no keys are generated (`isLocal_run`), and operations on tables of different
names do the same in either order (`IsLocal.comm`).
-/

namespace Tabula

open Store (Relation sameName)

/-! ## Statements -/

namespace Store

/-- A store with a table replaced, if there is one to put in its place. -/
def put (s : Store) : Option Relation → Store
  | none => s
  | some rel => s.replace rel

/-- Whether stores are the same but for the tables that have another name and for the id of the last
row. -/
structure AgreeOn (name? : Option String) (s s' : Store) : Prop where
  entries : s.entries = s'.entries
  now : s.now = s'.now
  standing : s.standing = s'.standing
  relation? : ∀ name ∈ name?, s.relation? name = s'.relation? name

variable {s s' : Store} {name : String} {α : Type}

/-- Stores that agree on a table can both change it, or neither. -/
theorem AgreeOn.changeable_eq (h : AgreeOn (some name) s s') :
    s.changeable name = s'.changeable name := by
  unfold changeable readable checkSound checkWritable
  rw [h.standing, h.entries, h.relation? name rfl]

/-- **A statement makes the same of its table** in stores that agree on it, and keeps its name. -/
theorem AgreeOn.revise_cases (h : AgreeOn (some name) s s') (check : Except Error Unit)
    {f : Relation → Except Error (Relation × α)}
    (hf : ∀ rel rel' a, f rel = .ok (rel', a) → rel'.emptied = rel.emptied) :
    (∃ e, s.revise check name f = .error e ∧ s'.revise check name f = .error e) ∨
      ∃ rel a, sameName rel.name name = true ∧ s.revise check name f = .ok (rel, a) ∧
        s'.revise check name f = .ok (rel, a) := by
  have hsame : s.revise check name f = s'.revise check name f := by
    unfold revise
    rw [h.changeable_eq]
  rw [← hsame]
  cases hrevised : s.revise check name f with
  | error e => exact .inl ⟨e, rfl, rfl⟩
  | ok revised =>
      obtain ⟨rel, a⟩ := revised
      obtain ⟨-, -, hrevised⟩ := Except.bind_eq_ok_iff.1 hrevised
      obtain ⟨old, hold, hrevised⟩ := Except.bind_eq_ok_iff.1 hrevised
      have hname : rel.emptied.name = old.emptied.name := by rw [hf old rel a hrevised]
      have hname : rel.name = old.name := hname
      exact .inr ⟨rel, a, hname ▸ sameName_of_relation? (relation?_of_changeable hold), rfl, rfl⟩

/-- Tables of different names can be put in their places in either order. -/
theorem put_comm (s : Store) {rel? other? : Option Relation}
    (h : ∀ rel ∈ rel?, ∀ other ∈ other?, sameName rel.name other.name = false) :
    (s.put rel?).put other? = (s.put other?).put rel? := by
  cases rel? with
  | none => cases other? <;> rfl
  | some rel =>
      cases other? with
      | none => rfl
      | some other => exact replace_comm s (h rel rfl other rfl)

/-- Of tables of one name that are put one after the other, the last one stays. -/
theorem put_put (s : Store) {rel? later? : Option Relation}
    (h : ∀ rel ∈ rel?, ∀ later ∈ later?, sameName rel.name later.name = true) :
    (s.put rel?).put later? = s.put (later?.or rel?) := by
  cases rel? with
  | none => cases later? <;> rfl
  | some rel =>
      cases later? with
      | none => rfl
      | some later => exact replace_replace s (h rel rfl later rfl)

/-- A table that is put stands for the one of its name, if there is one. -/
theorem relation?_put (s : Store) (rel? : Option Relation) (name : String) :
    (s.put rel?).relation? name
      = match rel? with
        | none => s.relation? name
        | some rel => if sameName rel.name name then (s.relation? name).map fun _ => rel
          else s.relation? name := by
  cases rel? with
  | none => rfl
  | some rel => exact relation?_replace s rel name

/-- Putting a table changes no entry of the schema. -/
@[simp]
theorem entries_put (s : Store) (rel? : Option Relation) : (s.put rel?).entries = s.entries := by
  cases rel? <;> rfl

@[simp]
theorem now_put (s : Store) (rel? : Option Relation) : (s.put rel?).now = s.now := by
  cases rel? <;> rfl

/-- Putting a table leaves the store as writable as it was. -/
@[simp]
theorem standing_put (s : Store) (rel? : Option Relation) : (s.put rel?).standing = s.standing := by
  cases rel? <;> rfl

end Store

/-- The name that a command has for its table. -/
def Command.table : Command → String
  | create r => r.table
  | update r => r.table
  | delete r => r.table

namespace Database

variable {α β γ : Type} {catalog : Catalog} {name? other? : Option String} {a b db : Database}

/-! ## Databases -/

/-- A database with a table replaced, if there is one to put in its place, and another id of the last
row. -/
def put (db : Database) (rel? : Option Relation) (lastId : Int64) : Database :=
  { db with store := { db.store.put rel? with lastId } }

/-- Whether databases have one catalog and no generator of keys, and are the same but for the tables
that have another name and for the id of the last row. -/
structure AgreeOn (catalog : Catalog) (name? : Option String) (a b : Database) : Prop where
  catalog : a.catalog = catalog ∧ b.catalog = catalog
  keys : a.keys = none ∧ b.keys = none
  inTransaction : a.inTransaction = b.inTransaction
  store : Store.AgreeOn name? a.store b.store

/-- Whether tables that may be put in place have a name. -/
def AreNamed (name? : Option String) (rel? : Option Relation) : Prop :=
  ∀ rel ∈ rel?, ∃ name ∈ name?, sameName rel.name name = true

/-- Whether an operation has the same result for databases that agree on a table, and does nothing but
put the same table in its place. -/
def IsLocal (catalog : Catalog) (name? : Option String) (operation : Operation α) : Prop :=
  ∀ a b, AgreeOn catalog name? a b → ∃ result rel?, AreNamed name? rel? ∧
    (∃ id, operation a = (result, a.put rel? id)) ∧ ∃ id, operation b = (result, b.put rel? id)

theorem areNamed_none : AreNamed name? none := nofun

/-- Two tables that are put in place under one name have the same name. -/
theorem AreNamed.sameName {rel? later? : Option Relation} (h : AreNamed name? rel?)
    (hlater : AreNamed name? later?) :
    ∀ rel ∈ rel?, ∀ later ∈ later?, sameName rel.name later.name = true := by
  intro rel hrel later hlater'
  obtain ⟨name, hname, hsame⟩ := h rel hrel
  obtain ⟨name', hname', hsame'⟩ := hlater later hlater'
  obtain rfl := Option.some.inj (hname.symm.trans hname')
  rw [Store.sameName_congr hsame, Store.sameName_comm, hsame']

/-- Of two changes the later one decides on the last row id. -/
theorem put_put_eq (db : Database) (rel? later? : Option Relation) (id id' : Int64) :
    (db.put rel? id).put later? id'
      = { db with store := { (db.store.put rel?).put later? with lastId := id' } } := by
  cases later? <;> rfl

/-- Two changes of one table are the later one, if there is one. -/
theorem put_put {rel? later? : Option Relation} {id id' : Int64} (h : AreNamed name? rel?)
    (hlater : AreNamed name? later?) :
    (db.put rel? id).put later? id' = db.put (later?.or rel?) id' := by
  rw [put_put_eq, Store.put_put db.store (h.sameName hlater)]
  rfl

/-- The later one of two changes changes no other table. -/
theorem AreNamed.or {rel? later? : Option Relation} (h : AreNamed name? rel?)
    (hlater : AreNamed name? later?) : AreNamed name? (later?.or rel?) := by
  cases later? with
  | none => exact h
  | some later => exact hlater

namespace AgreeOn

/-- Databases that agree on a table do so in a transaction. -/
theorem opened (h : AgreeOn catalog name? a b) : AgreeOn catalog name? (opened a) (opened b) where
  catalog := h.catalog
  keys := h.keys
  inTransaction := rfl
  store := h.store

/-- Databases agree on a table that is put in its place in both of them. -/
theorem put (h : AgreeOn catalog name? a b) (rel? : Option Relation) (id id' : Int64) :
    AgreeOn catalog name? (a.put rel? id) (b.put rel? id') where
  catalog := h.catalog
  keys := h.keys
  inTransaction := h.inTransaction
  store := by
    obtain ⟨hentries, hnow, hstanding, hrelation⟩ := h.store
    refine ⟨by simpa [Database.put], by simpa [Database.put], by simpa [Database.put],
      fun name hname => ?_⟩
    show (a.store.put rel?).relation? name = (b.store.put rel?).relation? name
    rw [Store.relation?_put, Store.relation?_put, hrelation name hname]

end AgreeOn

/-! ## What is local -/

/-- What depends on nothing and changes nothing is local. -/
theorem isLocal_const (result : Except Error α) : IsLocal catalog name? fun db => (result, db) :=
  fun _ _ _ => ⟨result, none, areNamed_none, ⟨_, rfl⟩, ⟨_, rfl⟩⟩

/-- What is made of a local result is local. -/
theorem IsLocal.mapResult {operation : Operation α} (h : IsLocal catalog name? operation)
    (f : α → β) : IsLocal catalog name? (mapResult f operation) := by
  intro a b hab
  obtain ⟨result, rel?, hnamed, ⟨id, ha⟩, id', hb⟩ := h a b hab
  refine ⟨result.map f, rel?, hnamed, ⟨id, ?_⟩, id', ?_⟩
  · unfold Database.mapResult
    rw [ha]
    cases result <;> rfl
  · unfold Database.mapResult
    rw [hb]
    cases result <;> rfl

/-- What a transaction makes of a body that puts a table in its place. -/
theorem transaction_of_put {body : Operation α} (hclosed : a.inTransaction = false)
    {result : Except Error α} {rel? : Option Relation} {id : Int64}
    (h : body (opened a) = (result, (opened a).put rel? id)) :
    transaction body a
      = (result, a.put (if result.isOk then rel? else none) id) := by
  obtain ⟨catalog, store, keys, open?⟩ := a
  obtain rfl : open? = false := hclosed
  have h : body { catalog, store, keys, inTransaction := true } = _ := h
  unfold transaction
  rw [if_neg nofun, h]
  cases result with
  | ok x => rfl
  | error e => cases rel? <;> rfl

/-- A local operation is so in a transaction of its own. -/
theorem IsLocal.transaction {body : Operation α} (h : IsLocal catalog name? body) :
    IsLocal catalog name? (transaction body) := by
  intro a b hab
  cases hopen : a.inTransaction with
  | true =>
      have hopen' : b.inTransaction = true := hab.inTransaction ▸ hopen
      refine ⟨.error (.request .transactionOpen), none, areNamed_none, ⟨a.store.lastId, ?_⟩,
        b.store.lastId, ?_⟩
      · unfold Database.transaction
        rw [if_pos hopen]
        rfl
      · unfold Database.transaction
        rw [if_pos hopen']
        rfl
  | false =>
      have hopen' : b.inTransaction = false := hab.inTransaction ▸ hopen
      obtain ⟨result, rel?, hnamed, ⟨id, ha⟩, id', hb⟩ := h (opened a) (opened b) hab.opened
      refine ⟨result, _, ?_, ⟨id, transaction_of_put hopen ha⟩, id', transaction_of_put hopen' hb⟩
      split
      · exact hnamed
      · exact areNamed_none

/-- A local operation is so however it is scoped. -/
theorem IsLocal.within {body : Operation α} (h : IsLocal catalog name? body) (scoping : Scoping) :
    IsLocal catalog name? (within scoping body) := by
  cases scoping with
  | joined => exact h
  | own => exact h.transaction

section Statements

variable {name : String}

/-- Adding a row is local to its table. -/
theorem isLocal_addRow {q : Sql.Insert} (hq : q.table = name) :
    IsLocal catalog (some name) (addRow q) := by
  subst hq
  intro a b hab
  have hcases := hab.store.revise_cases (Store.checkTokens q.tokens)
    fun rel rel' id (h : rel.insert a.store.now q.values = .ok (rel', id)) =>
      Relation.emptied_insert h
  unfold addRow
  rw [Store.insert_eq_revise, Store.insert_eq_revise, ← hab.store.now]
  rcases hcases with ⟨e, ha, hb⟩ | ⟨rel, id, hname, ha, hb⟩
  · rw [ha, hb]
    exact ⟨.error e, none, areNamed_none, ⟨_, rfl⟩, _, rfl⟩
  · rw [ha, hb]
    exact ⟨.ok id, some rel, fun _ h => ⟨_, rfl, Option.some.inj h ▸ hname⟩, ⟨_, rfl⟩, _, rfl⟩

/-- Adding rows to one table is local to it. -/
theorem isLocal_addRows {planned : List PlannedRow}
    (h : ∀ row ∈ planned, row.statement.table = name) :
    IsLocal catalog (some name) (addRows planned) := by
  induction planned with
  | nil => exact isLocal_const _
  | cons row planned ih =>
      obtain ⟨hrow, hplanned⟩ := List.forall_mem_cons.1 h
      intro a b hab
      obtain ⟨first, rel?, hnamed, ⟨id, ha⟩, id', hb⟩ := isLocal_addRow hrow a b hab
      unfold addRows
      rw [ha, hb]
      cases first with
      | error e => exact ⟨.error e, rel?, hnamed, ⟨_, rfl⟩, _, rfl⟩
      | ok key =>
          obtain ⟨result, later?, hlater, ⟨last, ha⟩, last', hb⟩ :=
            ih hplanned _ _ (hab.put rel? id id')
          rw [put_put hnamed hlater] at ha hb
          dsimp only
          rw [ha, hb]
          cases result with
          | error e => exact ⟨.error e, _, hnamed.or hlater, ⟨_, rfl⟩, _, rfl⟩
          | ok keys => exact ⟨.ok _, _, hnamed.or hlater, ⟨_, rfl⟩, _, rfl⟩

/-- A statement that revises one table, and leaves it what it is without its rows, is local to it.
-/
theorem isLocal_change {run : Store → Except Error (Store × Nat)} {check : Except Error Unit}
    {f : Relation → Except Error (Relation × Nat)}
    (hrun : ∀ s, run s = (fun p => (s.replace p.1, p.2)) <$> s.revise check name f)
    (hf : ∀ rel rel' n, f rel = .ok (rel', n) → rel'.emptied = rel.emptied) :
    IsLocal catalog (some name) (change run) := by
  intro a b hab
  unfold change
  rw [hrun, hrun]
  rcases hab.store.revise_cases check hf with ⟨e, ha, hb⟩ | ⟨rel, n, hname, ha, hb⟩
  · rw [ha, hb]
    exact ⟨.error e, none, areNamed_none, ⟨_, rfl⟩, _, rfl⟩
  · rw [ha, hb]
    exact ⟨.ok n, some rel, fun _ h => ⟨_, rfl, Option.some.inj h ▸ hname⟩, ⟨_, rfl⟩, _, rfl⟩

/-- An update statement is local to its table. -/
theorem isLocal_change_update (q : Sql.Update) :
    IsLocal catalog (some q.table) (change fun s => s.update q) :=
  isLocal_change (fun s => Store.update_eq_revise s q) fun _ _ _ => Store.emptied_set

/-- A delete statement is local to its table. -/
theorem isLocal_change_delete (q : Sql.Delete) :
    IsLocal catalog (some q.table) (change fun s => s.delete q) :=
  isLocal_change (fun s => Store.delete_eq_revise s q) fun _ _ _ => Store.emptied_remove

end Statements

/-! ## Commands -/

/-- Without a generator, planning rows makes none. -/
theorem keys_planRows (t : Table) (used : List String) (rows : List RowValues) :
    (planRows t (⟨used, none⟩ : Planning) rows).2.keys = none := by
  induction rows with
  | nil => rfl
  | cons row rows ih =>
      have hsettled : (settleKey t (⟨used, none⟩ : Planning) row).2 = ⟨used, none⟩ := by
        unfold settleKey
        split
        · rfl
        · split
          · rfl
          · rfl
          · next h => cases h
      unfold planRows
      split
      · next heq =>
          rw [heq] at hsettled
          rw [hsettled]
      · next heq =>
          rw [heq] at hsettled
          obtain rfl := hsettled
          split
          · rfl
          · split <;> next heq => simpa [heq] using ih

/-- Without a generator, creating rows is planning and adding them. -/
theorem create_eq_of_keys {t : Table} {scoping : Scoping} {r : CreateRequest}
    (hkeys : db.keys = none) (ht : db.catalog.table r.table = .ok t) :
    create scoping r db
      = match (planRows t (⟨suppliedKeys t r.rows, none⟩ : Planning) r.rows).1 with
        | .error e => (.error e, db)
        | .ok planned => within scoping (addRows planned) db := by
  obtain ⟨catalog, store, keys, open?⟩ := db
  obtain rfl : keys = none := hkeys
  have hnone := keys_planRows t (suppliedKeys t r.rows) r.rows
  unfold create
  rw [ht]
  dsimp only
  generalize planRows t (⟨suppliedKeys t r.rows, none⟩ : Planning) r.rows = outcome at hnone ⊢
  obtain ⟨planned, used, keys⟩ := outcome
  obtain rfl : keys = none := hnone
  cases planned <;> rfl

/-- The name of the table that a catalog has for a command. -/
def target (catalog : Catalog) (command : Command) : Option String :=
  (catalog.table? command.table).map Table.name

/-- A command on a table of the catalog is about the table as it is declared. -/
theorem target_eq (command : Command) {t : Table} (ht : catalog.table command.table = .ok t) :
    target catalog command = some t.name := by
  unfold target
  rw [Catalog.table_eq_ok_iff.1 ht]
  rfl

variable (scoping : Scoping)

/-- A create request is local to its table. -/
theorem isLocal_create (r : CreateRequest) :
    IsLocal catalog (target catalog (.create r)) (create scoping r) := by
  intro a b hab
  cases ht : catalog.table r.table with
  | error e =>
      refine ⟨.error e, none, areNamed_none, ⟨a.store.lastId, ?_⟩, b.store.lastId, ?_⟩
      · unfold create
        rw [hab.catalog.1, ht]
        rfl
      · unfold create
        rw [hab.catalog.2, ht]
        rfl
  | ok t =>
      rw [create_eq_of_keys hab.keys.1 (hab.catalog.1 ▸ ht),
        create_eq_of_keys hab.keys.2 (hab.catalog.2 ▸ ht)]
      cases hplanned : (planRows t (⟨suppliedKeys t r.rows, none⟩ : Planning) r.rows).1 with
      | error e => exact isLocal_const (.error e) a b hab
      | ok planned =>
          rw [target_eq (.create r) ht] at hab ⊢
          refine (isLocal_addRows fun row hrow => ?_).within scoping a b hab
          obtain ⟨values, hvalues⟩ := exists_of_planRows (Prod.ext hplanned rfl) row hrow
          obtain ⟨-, hstatement⟩ := Plan.insert_eq_ok hvalues
          rw [hstatement]

/-- An update request is local to its table. -/
theorem isLocal_update (r : UpdateRequest) :
    IsLocal catalog (target catalog (.update r)) (update scoping r) := by
  intro a b hab
  unfold update
  rw [hab.catalog.1, hab.catalog.2]
  cases hplan : Plan.update catalog r with
  | error e => exact isLocal_const (.error e) a b hab
  | ok q =>
      obtain ⟨t, condition, ht, -, -, hq⟩ := Plan.update_eq_ok hplan
      have htable : q.table = t.name := by rw [hq]
      rw [target_eq (.update r) ht, ← htable] at hab ⊢
      exact (isLocal_change_update q).within scoping a b hab

/-- A delete request is local to its table. -/
theorem isLocal_delete (r : DeleteRequest) :
    IsLocal catalog (target catalog (.delete r)) (delete scoping r) := by
  intro a b hab
  unfold delete
  rw [hab.catalog.1, hab.catalog.2]
  cases hplan : Plan.delete catalog r with
  | error e => exact isLocal_const (.error e) a b hab
  | ok q =>
      obtain ⟨t, condition, ht, -, hq⟩ := Plan.delete_eq_ok hplan
      have htable : q.table = t.name := by rw [hq]
      rw [target_eq (.delete r) ht, ← htable] at hab ⊢
      exact (isLocal_change_delete q).within scoping a b hab

/-- **A command does what it does to its table.** -/
theorem isLocal_run (command : Command) :
    IsLocal catalog (target catalog command) (run scoping command) := by
  cases command with
  | create r => exact (isLocal_create scoping r).mapResult _
  | update r => exact (isLocal_update scoping r).mapResult _
  | delete r => exact (isLocal_delete scoping r).mapResult _

/-! ## In either order -/

/-- Databases that differ in the id of the last row only. -/
def SameButLastId (a b : Database) : Prop :=
  { a with store := { a.store with lastId := b.store.lastId } } = b

namespace SameButLastId

/-- Databases that differ in the last row id alone agree on every table. -/
theorem agreeOn (h : SameButLastId a b) (hcatalog : a.catalog = catalog) (hkeys : a.keys = none)
    (name? : Option String) : AgreeOn catalog name? a b := by
  rw [← h]
  exact ⟨⟨hcatalog, hcatalog⟩, ⟨hkeys, hkeys⟩, rfl, ⟨rfl, rfl, rfl, fun _ _ => rfl⟩⟩

/-- After the same change they still differ in nothing else. -/
theorem put (h : SameButLastId a b) (rel? : Option Relation) (id id' : Int64) :
    SameButLastId (a.put rel? id) (b.put rel? id') := by
  unfold SameButLastId at h ⊢
  rw [← h]
  cases rel? <;> rfl

end SameButLastId

/-- Whether no table has one of the names and the other. -/
def AreApart (name? other? : Option String) : Prop :=
  ∀ name ∈ name?, ∀ other ∈ other?, sameName name other = false

theorem AreApart.symm (h : AreApart name? other?) : AreApart other? name? := by
  intro other hother name hname
  rw [Store.sameName_comm]
  exact h name hname other hother

/-- Tables of names that are apart have different names. -/
theorem AreApart.sameName {rel? later? : Option Relation} (h : AreApart name? other?)
    (hnamed : AreNamed name? rel?) (hlater : AreNamed other? later?) :
    ∀ rel ∈ rel?, ∀ later ∈ later?, sameName rel.name later.name = false := by
  intro rel hrel later hlater'
  obtain ⟨name, hname, hsame⟩ := hnamed rel hrel
  obtain ⟨other, hother, hsame'⟩ := hlater later hlater'
  rw [Store.sameName_congr hsame, Store.sameName_comm, Store.sameName_congr hsame',
    Store.sameName_comm]
  exact h name hname other hother

/-- An operation on a table leaves tables of other names alone. -/
theorem agreeOn_put {rel? : Option Relation} (hcatalog : db.catalog = catalog)
    (hkeys : db.keys = none) (hnamed : AreNamed name? rel?) (hapart : AreApart name? other?)
    (id : Int64) : AgreeOn catalog other? db (db.put rel? id) where
  catalog := ⟨hcatalog, hcatalog⟩
  keys := ⟨hkeys, hkeys⟩
  inTransaction := rfl
  store := by
    refine ⟨by simp [put], by simp [put], by simp [put], fun other hother => ?_⟩
    show db.store.relation? other = (db.store.put rel?).relation? other
    rw [Store.relation?_put]
    split
    · rfl
    · next rel =>
        obtain ⟨name, hname, hsame⟩ := hnamed rel rfl
        rw [Store.sameName_congr hsame, hapart name hname other hother]
        rfl

/-- What an operation on a table does depends on nothing that an operation on a table of another name
does. -/
theorem IsLocal.comm {first : Operation α} {second : Operation β}
    (hfirst : IsLocal catalog name? first) (hsecond : IsLocal catalog other? second)
    (hapart : AreApart name? other?) (hcatalog : db.catalog = catalog) (hkeys : db.keys = none) :
    (second (first db).2).1 = (second db).1 ∧ (first (second db).2).1 = (first db).1 ∧
      SameButLastId (second (first db).2).2 (first (second db).2).2 := by
  have hself : SameButLastId db db := rfl
  obtain ⟨_, rel?, hnamed, ⟨id, hdone⟩, -⟩ := hfirst db db (hself.agreeOn hcatalog hkeys name?)
  have hafter : AgreeOn catalog other? db (first db).2 := by
    rw [hdone]
    exact agreeOn_put hcatalog hkeys hnamed hapart id
  obtain ⟨result', later?, hlater, ⟨id, hsecond⟩, id', hsecond'⟩ := hsecond db (first db).2 hafter
  have hafter : AgreeOn catalog name? db (second db).2 := by
    rw [hsecond]
    exact agreeOn_put hcatalog hkeys hlater hapart.symm id
  obtain ⟨result, rel?, hnamed, ⟨last, hfirst⟩, last', hfirst'⟩ := hfirst db (second db).2 hafter
  refine ⟨by rw [hsecond', hsecond], by rw [hfirst', hfirst], ?_⟩
  rw [hsecond', hfirst', hfirst, hsecond]
  show SameButLastId ((db.put rel? last).put later? id') ((db.put later? id).put rel? last')
  rw [put_put_eq, put_put_eq, Store.put_comm db.store (hapart.sameName hnamed hlater)]
  rfl

end Database

end Tabula
