import Tabula.Proofs.Database.Apart
import Tabula.Proofs.Database.Sequence
import Tabula.Proofs.Refusal
import Tabula.Proofs.Store.Selected

/-!
# Unique rows

In a database no two rows of a table have the same primary key, the same value in a unique column, or
the same values in the columns of a constraint, and a command that would break this is refused. What
a command would do is said without any checks of rows: rows are added and set freely. Main statement:
`differ_of_run`.
-/

namespace Tabula

open Store (Relation Row sameName)
open Store.Relation (Assignment addedRow changedRow place)

/-! ## Adding and setting freely -/

namespace Store

variable {s free : Store}

/-- The store with the row of a statement, whether or not it may stand beside the others. -/
def insertFreely (s : Store) (q : Sql.Insert) : Except Error Store := do
  checkTokens q.tokens
  let rel ← s.changeable q.table
  let assignment ← rel.bind q.values
  let id ← rel.newId assignment
  return { s.replace { rel with rows := place (rel.addedRow s.now assignment id) rel.rows } with
    lastId := id }

/-- A table with the rows of some ids set, all at once and whether or not they may stand beside each
other. -/
def Relation.withSet (rel : Relation) (assignment : Assignment) (ids : List Int64) : Relation :=
  { rel with
    rows := rel.rows.map fun r => if r.id ∈ ids then rel.changedRow assignment r else r }

/-- The store with the rows set that meet the condition of a statement, whether or not they may
stand. -/
def updateFreely (s : Store) (q : Sql.Update) : Except Error Store := do
  checkUpdate q
  let rel ← s.changeable q.table
  let assignment ← rel.bind q.values
  let (rows, _) ← matching rel q.condition
  return s.replace (rel.withSet assignment (rows.map Row.id))

/-- A row that could be added but for the constraints is added, or refused by the data. -/
theorem insert_of_insertFreely {q : Sql.Insert} (h : s.insertFreely q = .ok free) :
    (∃ cause, s.insert q = .error (.database cause)) ∨ s.insert q = .ok free := by
  obtain ⟨⟨⟩, htokens, h⟩ := Except.bind_eq_ok_iff.1 h
  obtain ⟨rel, hrel, h⟩ := Except.bind_eq_ok_iff.1 h
  obtain ⟨assignment, hbind, h⟩ := Except.bind_eq_ok_iff.1 h
  obtain ⟨id, hid, h⟩ := Except.bind_eq_ok_iff.1 h
  obtain rfl := Except.ok.inj h
  have hinsert : s.insert q = (do
      rel.checkRow rel.rows (rel.addedRow s.now assignment id)
      return { s.replace { rel with rows := place (rel.addedRow s.now assignment id) rel.rows } with
        lastId := id }) := by
    unfold insert Relation.insert
    rw [htokens, Except.ok_bind, hrel, Except.ok_bind, hbind, Except.ok_bind, hid, Except.ok_bind]
    show ((rel.checkRow rel.rows (rel.addedRow s.now assignment id) >>= _) >>= _) = _
    cases rel.checkRow rel.rows (rel.addedRow s.now assignment id) <;> rfl
  rw [hinsert]
  cases hcheck : rel.checkRow rel.rows (rel.addedRow s.now assignment id) with
  | ok _ => exact .inr rfl
  | error e =>
      obtain ⟨cause, rfl⟩ : ∃ cause, e = .database cause :=
        failsWith_checkRow (P := fun e => ∃ cause, e = .database cause)
          (fun cause _ => ⟨cause, rfl⟩) _ _ e hcheck
      exact .inl ⟨cause, rfl⟩

/-- The rows that meet the condition of a statement are set one after the other, or what the data are
keeps one of them from being set. -/
theorem update_cases {q : Sql.Update} {rel : Relation} {assignment : Assignment} {rows : List Row}
    {arrangement : Access.Arrangement} (hsize : checkUpdate q = .ok ())
    (hrel : s.changeable q.table = .ok rel) (hbind : rel.bind q.values = .ok assignment)
    (hmatching : matching rel q.condition = .ok (rows, arrangement)) :
    (∃ cause, s.update q = .error (.database cause)) ∨
      ∃ ids rel', ids.Perm (rows.map Row.id) ∧ rel.updateRows assignment ids = .ok rel' ∧
        s.update q = .ok (s.replace rel', rows.length) := by
  unfold update
  rw [hsize, Except.ok_bind, hrel, Except.ok_bind, hbind, Except.ok_bind, hmatching, Except.ok_bind]
  dsimp only
  have hperm : (if staysPut (assignment.map (·.1)) arrangement then rows.map Row.id
      else (rows.map Row.id).mergeSort fun a b => a ≤ b).Perm (rows.map Row.id) := by
    split
    · exact .refl _
    · exact List.mergeSort_perm _ _
  revert hperm
  generalize (if staysPut (assignment.map (·.1)) arrangement then rows.map Row.id
    else (rows.map Row.id).mergeSort fun a b => a ≤ b) = ids
  intro hperm
  cases hupdate : rel.updateRows assignment ids with
  | ok rel' => exact .inr ⟨ids, rel', hperm, hupdate, rfl⟩
  | error e =>
      obtain ⟨cause, rfl⟩ : ∃ cause, e = .database cause :=
        failsWith_updateRows (P := fun e => ∃ cause, e = .database cause)
          (fun cause _ => ⟨cause, rfl⟩) _ _ e hupdate
      exact .inl ⟨cause, rfl⟩

/-- Rows that could be changed but for the constraints are changed, or refused by the data. -/
theorem update_of_updateFreely {q : Sql.Update} (h : s.updateFreely q = .ok free) :
    ∃ rel assignment rows arrangement, s.relation? q.table = some rel ∧
      rel.bind q.values = .ok assignment ∧ matching rel q.condition = .ok (rows, arrangement) ∧
      free = s.replace (rel.withSet assignment (rows.map Row.id)) ∧
      ((∃ cause, s.update q = .error (.database cause)) ∨
        ∃ ids rel', ids.Perm (rows.map Row.id) ∧ rel.updateRows assignment ids = .ok rel') := by
  obtain ⟨⟨⟩, hsize, h⟩ := Except.bind_eq_ok_iff.1 h
  obtain ⟨rel, hrel, h⟩ := Except.bind_eq_ok_iff.1 h
  obtain ⟨assignment, hbind, h⟩ := Except.bind_eq_ok_iff.1 h
  obtain ⟨⟨rows, arrangement⟩, hmatching, h⟩ := Except.bind_eq_ok_iff.1 h
  refine ⟨rel, assignment, rows, arrangement, relation?_of_changeable hrel, hbind, hmatching,
    (Except.ok.inj h).symm, ?_⟩
  rcases update_cases hsize hrel hbind hmatching with hrefused | ⟨ids, rel', hperm, hset, -⟩
  · exact .inl hrefused
  · exact .inr ⟨ids, rel', hperm, hset⟩

/-- Rows that are set one after the other are those that are set all at once. -/
theorem perm_withSet {rel rel' : Relation} {condition : Option Sql.Condition} {rows : List Row}
    {arrangement : Access.Arrangement} {assignment : Assignment} {ids : List Int64}
    (hmatching : matching rel condition = .ok (rows, arrangement))
    (hnodup : (rel.rows.map Row.id).Nodup) (hids : ids.Perm (rows.map Row.id))
    (hset : rel.updateRows assignment ids = .ok rel') :
    (rel.withSet assignment (rows.map Row.id)).rows.Perm rel'.rows := by
  have hfound : ∀ id ∈ ids, ∃ r ∈ rel.rows, r.id = id := by
    intro id hid
    obtain ⟨r, hr, rfl⟩ := List.mem_map.1 (hids.mem_iff.1 hid)
    exact ⟨r, mem_of_matching hmatching hr, rfl⟩
  have hdistinct := hids.nodup_iff.2 (nodup_of_matching hmatching hnodup)
  refine .trans (.of_eq ?_) (Relation.perm_of_updateRows hdistinct hfound hnodup hset).symm
  apply List.map_congr_left
  intro r _
  simp only [hids.mem_iff]

end Store

/-! ## Rows in another order -/

namespace Table

variable {t : Table} {rel rel' : Relation}

/-- The types of rows do not depend on their order. -/
theorem Types.of_perm (h : t.Types rel) (hemptied : rel'.emptied = rel.emptied)
    (hperm : rel'.rows.Perm rel.rows) : t.Types rel' :=
  ⟨h.toIsLaidOutAs.of_emptied hemptied, fun r hr => h.holds r (hperm.mem_iff.1 hr)⟩

/-- Nor does whether they are apart. -/
theorem IsApart.of_perm (h : t.IsApart rel) (hemptied : rel'.emptied = rel.emptied)
    (hperm : rel'.rows.Perm rel.rows) : t.IsApart rel' := by
  have hindexes : rel'.emptied.indexes = rel.emptied.indexes := congrArg Relation.indexes hemptied
  refine ⟨⟨?_, ?_⟩, fun names hnames => (h.guards names hnames).of_emptied hemptied⟩
  · unfold Store.Relation.IsUnique
    rw [show rel'.indexes = rel.indexes from hindexes]
    exact h.unique.perm hperm.symm
  · exact fun r hr => (h.rows r (hperm.mem_iff.1 hr)).of_emptied hemptied

end Table

namespace Database

variable {db mid free : Database} {t : Table} {rel : Relation} {γ : Type}

/-! ## Tables whose rows differ -/

/-- The records of a table that is put in place are its rows. -/
theorem records_replace (ht : db.catalog.table? t.name = some t)
    (hrel : db.store.relation? t.name = some rel) {rel' : Relation} (hname : rel'.name = rel.name) :
    records { db with store := db.store.replace rel' } t.name = t.recordsOf rel' := by
  refine records_eq ht ?_
  exact Store.relation?_replace_self hrel hname

/-- Whether the tables of a database are typed and kept apart. -/
structure IsOrderly (db : Database) : Prop where
  typed : db.IsTyped
  apart : db.Holds Table.IsApart

namespace IsOrderly

/-- An orderly database stays so step by step. -/
theorem of_steps (h : db.IsOrderly) (hsteps : Steps db mid) : mid.IsOrderly := by
  obtain ⟨htyped, hapart⟩ := h.typed.holds_of_steps
    (fun t rel rel' hconsistent htypes hchange hapart => hapart.change hconsistent htypes hchange)
    h.apart hsteps
  exact ⟨htyped, hapart⟩

/-- **The rows of every table differ.** -/
theorem differ (h : db.IsOrderly) (ht : db.catalog.table? t.name = some t) :
    t.Differ (db.records t.name) := by
  obtain ⟨rel, hrel, htypes⟩ := h.typed.types t ht
  rw [records_eq ht hrel]
  exact (h.apart.of_relation? ht hrel).differ htypes

end IsOrderly

/-! ## Commands that would break this -/

/-- Whether a command would leave two rows of a table that do not differ: if its rows, or the first of
them, were added freely, or the rows that it selects were set freely. -/
inductive Breaks (db : Database) : Command → Prop
  | create {r : CreateRequest} {t : Table} {first rest : List PlannedRow} {p : Planning}
    {free : Store} (table_eq : db.catalog.table r.table = .ok t)
    (plan_eq : planRows t ⟨suppliedKeys t r.rows, db.keys⟩ r.rows = (.ok (first ++ rest), p))
    (free_eq : first.foldlM (fun s row => s.insertFreely row.statement) db.store = .ok free)
    (broken : ¬ t.Differ (records { db with store := free } t.name)) : Breaks db (.create r)
  | update {r : UpdateRequest} {t : Table} {q : Sql.Update} {free : Store}
    (table_eq : db.catalog.table r.table = .ok t) (plan_eq : Plan.update db.catalog r = .ok q)
    (free_eq : db.store.updateFreely q = .ok free)
    (broken : ¬ t.Differ (records { db with store := free } t.name)) : Breaks db (.update r)

/-- A command breaks the same constraints in a transaction. -/
theorem Breaks.opened {command : Command} (h : db.Breaks command) :
    (Database.opened db).Breaks command := by
  cases h with
  | create htable hplan hfree hbroken => exact .create htable hplan hfree hbroken
  | update htable hplan hfree hbroken => exact .update htable hplan hfree hbroken

/-- Rows that can be added freely are added, or the first that is refused is for what the data are. -/
theorem addRows_of_insertFreely {first rest : List PlannedRow} {free : Store}
    (h : first.foldlM (fun s row => s.insertFreely row.statement) db.store = .ok free) :
    (∃ cause, (addRows (first ++ rest) db).1 = .error (.database cause)) ∨
      (addRows first db).2 = { db with store := free } := by
  -- By induction on the rows: each is refused, or added just as it is freely.
  induction first generalizing db with
  | nil =>
      obtain rfl := Except.ok.inj h
      exact .inr rfl
  | cons row first ih =>
      rw [List.foldlM_cons] at h
      obtain ⟨next, hnext, h⟩ := Except.bind_eq_ok_iff.1 h
      rcases Store.insert_of_insertFreely hnext with ⟨cause, hrefused⟩ | hinsert
      · refine .inl ⟨cause, ?_⟩
        rw [List.cons_append, addRows, addRow, hrefused]
      · have hstart : addRow row.statement db = (.ok next.lastId, { db with store := next }) := by
          rw [addRow, hinsert]
        rcases @ih { db with store := next } h with ⟨cause, hrefused⟩ | hadded
        · refine .inl ⟨cause, ?_⟩
          rw [List.cons_append, addRows, hstart]
          dsimp only
          split
          · next heq => simp [heq] at hrefused
          · next heq => simpa [heq] using hrefused
        · refine .inr ?_
          rw [addRows, hstart]
          dsimp only
          split
          · next heq => simpa [heq] using hadded
          · next heq => simpa [heq] using hadded

namespace IsOrderly

/-- A create request that breaks a constraint is refused by the data. -/
theorem create_of_breaks (h : db.IsOrderly) {r : CreateRequest} (hbreaks : db.Breaks (.create r)) :
    ∃ cause, (create .joined r db).1 = .error (.database cause) := by
  cases hbreaks with
  | @create _ t first rest p free htable hplan hfree hbroken =>
  unfold create
  rw [htable]
  dsimp only
  rw [hplan]
  have hstart : IsOrderly { db with keys := p.keys } :=
    h.of_steps (isStepwise_steps.keys db p.keys)
  rcases @addRows_of_insertFreely { db with keys := p.keys } first rest free hfree with
    hrefused | hadded
  · exact hrefused
  · -- Rows that were added would differ.
    have hplanned := exists_of_planRows hplan
    have htable' : ({ db with keys := p.keys } : Database).catalog.table r.table = .ok t := htable
    have hsteps := isStepwise_steps.addRows htable' fun row hrow =>
      hplanned row (List.mem_append_left rest hrow)
    rw [hadded] at hsteps
    have hdiffer := (hstart.of_steps hsteps).differ (h.typed.table?_eq htable)
    exact absurd hdiffer hbroken

/-- An update request that breaks a constraint is refused by the data. -/
theorem update_of_breaks (h : db.IsOrderly) {r : UpdateRequest} (hbreaks : db.Breaks (.update r)) :
    ∃ cause, (update .joined r db).1 = .error (.database cause) := by
  cases hbreaks with
  | @update _ t q free htable hplan hfree hbroken =>
  unfold update
  rw [hplan]
  show ∃ cause, (change (·.update q) db).1 = .error (.database cause)
  obtain ⟨u, condition, hu, hvalues, -, rfl⟩ := Plan.update_eq_ok hplan
  obtain rfl : t = u := Except.ok.inj (htable.symm.trans hu)
  obtain ⟨rel, assignment, rows, arrangement, hrel, hbind, hmatching, rfl, hrefused | hset⟩ :=
    Store.update_of_updateFreely hfree
  · obtain ⟨cause, hrefused⟩ := hrefused
    refine ⟨cause, ?_⟩
    unfold change
    dsimp only
    rw [hrefused]
  · obtain ⟨ids, rel', hids, hset⟩ := hset
    have ht := h.typed.table?_eq htable
    have htypes := h.typed.types_of_relation? ht hrel
    have hchange : t.Change rel rel' := .update (Plan.exists_of_checkValues hvalues) hbind hset
    have hapart := h.apart.of_relation? ht hrel
    have hnew := hapart.change (h.typed.isConsistent t ht) htypes hchange
    have hnewTypes : t.Types rel' :=
      htypes.updateRows (h.typed.isConsistent t ht)
        (htypes.suits_of_bind (Plan.exists_of_checkValues hvalues) hbind) hset
    -- The rows that were set one after the other are those that are set all at once.
    have hperm := Store.perm_withSet hmatching hapart.unique.ids hids hset
    have hemptied : (rel.withSet assignment (rows.map Row.id)).emptied = rel'.emptied :=
      hchange.emptied.symm
    have hdiffer := (hnew.of_perm hemptied hperm).differ (hnewTypes.of_perm hemptied hperm)
    have hname : (rel.withSet assignment (rows.map Row.id)).name = rel.name := rfl
    rw [records_replace ht hrel hname] at hbroken
    exact absurd hdiffer hbroken

/-- **A command that would break what keeps rows apart is refused** for what the data are. -/
theorem run_of_breaks (h : db.IsOrderly) {command : Command} (hbreaks : db.Breaks command) :
    ∃ cause, (run .joined command db).1 = .error (.database cause) := by
  have hmap {α : Type} {operation : Operation α} {f : α → CommandAnswer}
      (hoperation : ∃ cause, (operation db).1 = .error (.database cause)) :
      ∃ cause, (mapResult f operation db).1 = .error (.database cause) := by
    obtain ⟨cause, hcause⟩ := hoperation
    refine ⟨cause, ?_⟩
    unfold mapResult
    split
    · next heq => simp [heq] at hcause
    · next heq => simpa [heq] using hcause
  cases command with
  | create r => exact hmap (h.create_of_breaks hbreaks)
  | update r => exact hmap (h.update_of_breaks hbreaks)
  | delete r => cases hbreaks

end IsOrderly

/-! ## Commands that are refused -/

/-- What an operation that joins the open transaction, or has one of its own, starts from. -/
def inside (db : Database) : Scoping → Database
  | .joined => db
  | .own => opened db

/-- Whether an operation fails with an error of the data that is passed on in some way, and in a
transaction of its own leaves the contents of all tables as they were. -/
structure IsRefused {α : Type} (scoping : Scoping) (operation : Operation α) (wrap : Error → Error)
    (db : Database) : Prop where
  fails : ∃ cause, (operation db).1 = .error (wrap (.database cause))
  same : scoping = .own → SameContents db (operation db).2

/-- Commands that succeed up to one that fails, fail at its position. -/
theorem inOrder_of_error {β : Type} {step : γ → Operation β} {before : List γ} {item : γ}
    {index : Nat} {answers : List β} {e : Error} (after : List γ)
    (hbefore : inOrder step index before db = (.ok answers, mid))
    (hitem : (step item mid).1 = .error e) :
    (inOrder step index (before ++ item :: after) db).1
      = .error (.batch (index + before.length) e) := by
  -- By induction on the items that succeed, each of which puts the failure one position further on.
  induction before generalizing index db answers with
  | nil =>
      obtain ⟨-, rfl⟩ := Prod.mk.inj hbefore
      rw [List.nil_append, inOrder]
      split
      · next heq =>
          rw [heq] at hitem
          rw [Except.error.inj hitem]
          rfl
      · next heq => simp [heq] at hitem
  | cons first before ih =>
      rw [inOrder] at hbefore
      rw [List.cons_append, inOrder]
      split at hbefore
      · cases (Prod.mk.inj hbefore).1
      · next heq =>
          split at hbefore
          · next hrest =>
              obtain ⟨-, rfl⟩ := Prod.mk.inj hbefore
              have hfails := ih hrest
              rw [List.length_cons, Nat.add_comm before.length, ← Nat.add_assoc]
              split
              · next hok => simp [hok] at hfails
              · next herror => simpa [herror] using hfails
          · cases (Prod.mk.inj hbefore).1

/-- An orderly database is so in a transaction. -/
theorem IsOrderly.inside (h : db.IsOrderly) : (scoping : Scoping) → (db.inside scoping).IsOrderly
  | .joined => h
  | .own => h.of_steps (steps_opened db)

/-- An operation is refused in a transaction of its own if it is in an open one. -/
theorem isRefused_of_encloses {α : Type} (operation : Scoping → Operation α)
    (wrap : Error → Error) (hencloses : Encloses (operation .own) (operation .joined))
    (hatomic : IsAtomic (operation .own)) {scoping : Scoping}
    (hdb : scoping = .own → db.inTransaction = false)
    (hfails : ∃ cause, (operation .joined (db.inside scoping)).1 = .error (wrap (.database cause))) :
    IsRefused scoping (operation scoping) wrap db := by
  obtain ⟨cause, hcause⟩ := hfails
  cases scoping with
  | joined => exact ⟨⟨cause, hcause⟩, nofun⟩
  | own =>
      have hown := (hencloses db (hdb rfl)).2 _ hcause
      exact ⟨⟨cause, hown⟩, fun _ => hatomic db _ hown⟩

/-- Commands are refused together if they succeed up to one that fails with an error of the data. -/
theorem isRefused_inOrder {β : Type} {step : γ → Operation β} {before : List γ} {item : γ}
    {answers : List β} (after : List γ) {scoping : Scoping}
    (hatomic : ∀ items, IsAtomic (within .own (inOrder step 0 items)))
    (hdb : scoping = .own → db.inTransaction = false)
    (hbefore : inOrder step 0 before (db.inside scoping) = (.ok answers, mid))
    (hitem : ∃ cause, (step item mid).1 = .error (.database cause)) :
    IsRefused scoping (within scoping (inOrder step 0 (before ++ item :: after)))
      (.batch before.length) db := by
  obtain ⟨cause, hcause⟩ := hitem
  have hfails := inOrder_of_error after hbefore hcause
  rw [Nat.zero_add] at hfails
  exact isRefused_of_encloses (within · (inOrder step 0 (before ++ item :: after)))
    (.batch before.length) (encloses_transaction _) (hatomic _) hdb ⟨cause, hfails⟩

/-- An orderly database is so after steps one after the other. -/
theorem IsOrderly.of_inOrder {β : Type} {step : γ → Operation β} {items : List γ}
    {answers : List β} (h : db.IsOrderly) (hstep : ∀ item db, Steps db (step item db).2)
    (hdone : inOrder step 0 items db = (.ok answers, mid)) : mid.IsOrderly := by
  have hsteps := isStepwise_steps.inOrder hstep items 0 db
  rw [hdone] at hsteps
  exact h.of_steps hsteps

/-- **The rows of tables differ in every state that is reached, and what would break this is
refused.** If no two of the names that the tables and constraints of a catalog take are the same, and
the tables are created in an empty store, then whatever requests, batches and transactions are run,
whether they succeed or fail, no two rows of a table have the same primary key, the same value in a
unique column, or the same values in the columns of a constraint, null apart. A command that would
leave such rows fails with an error of the data, and as a command of a batch with one that carries
its position; in a transaction of its own it leaves the contents of all tables as they were. -/
theorem differ_of_run {tables : List Table} {catalog : Catalog} {c : Configuration}
    {entropy : Entropy} {now : Int64} {store : Store} {start db : Database}
    (hbuild : Catalog.build tables = .ok catalog)
    (hnames : catalog.takenNames.Pairwise fun a b => sameName a b = false)
    (hcreates : c.createsTables = true)
    (hopen : openStore c catalog entropy (Store.empty now) = (.ok start, store))
    (hrun : Run start db) :
    (∀ t ∈ catalog.tables, t.Differ (db.records t.name)) ∧
    ∀ scoping, (scoping = .own → db.inTransaction = false) →
      (∀ command, db.Breaks command → IsRefused scoping (run scoping command) id db) ∧
      (∀ before command after answers mid,
        inOrder (run .joined) 0 before (db.inside scoping) = (.ok answers, mid) →
        mid.Breaks command →
        IsRefused scoping (batch scoping (before ++ command :: after)) (.batch before.length) db) ∧
      (∀ before raw command after answers mid, Command.ofJson raw = .ok command →
        inOrder runJson 0 before (db.inside scoping) = (.ok answers, mid) →
        mid.Breaks command →
        IsRefused scoping (batchJson scoping (before ++ raw :: after)) (.batch before.length) db) := by
  have hperm := Catalog.tables_perm_of_build hbuild
  have hdistinct : tables.Pairwise fun t u => sameName t.name u.name = false := by
    refine hperm.pairwise (Catalog.pairwise_tables hnames) fun {t u} hdiffer => ?_
    rw [Store.sameName_comm, hdiffer]
  have hopened := isTyped_of_openStore hbuild hdistinct hcreates hopen
  have hstart : start.IsOrderly :=
    ⟨hopened, holds_isApart_of_openStore hbuild hnames hcreates hopen hopened⟩
  have horderly := hstart.of_steps hrun.steps
  have hcatalog : db.catalog = catalog := by
    rw [hrun.steps.isBeside.catalog, (openStore_eq_ok hcreates hopen).1]
  refine ⟨?_, ?_⟩
  · intro t ht
    refine horderly.differ ?_
    rw [hcatalog]
    exact Catalog.table?_of_mem hbuild ht
  · intro scoping hdb
    have hinside := horderly.inside scoping
    refine ⟨?_, ?_, ?_⟩
    · intro command hbreaks
      -- What the command would break it would break inside its transaction as well.
      have hbreaks : (db.inside scoping).Breaks command := by
        cases scoping with
        | joined => exact hbreaks
        | own => exact hbreaks.opened
      exact isRefused_of_encloses (run · command) id (encloses_run command) (isAtomic_run command)
        hdb (hinside.run_of_breaks hbreaks)
    · intro before command after answers mid hbefore hbreaks
      -- The commands before it keep the rows apart, so it is the first to fail.
      have hmid := hinside.of_inOrder (isStepwise_steps.run .joined) hbefore
      exact isRefused_inOrder after isAtomic_batch hdb hbefore (hmid.run_of_breaks hbreaks)
    · intro before raw command after answers mid hraw hbefore hbreaks
      have hmid := hinside.of_inOrder isStepwise_steps.runJson hbefore
      refine isRefused_inOrder after isAtomic_batchJson hdb hbefore ?_
      rw [runJson_eq hraw]
      exact hmid.run_of_breaks hbreaks

/-- A table of books, which have a code each and no two of which are in one place. -/
def bookTable : Table where
  name := "Book"
  columns := [
    { name := "id", type := .int, isKey := true },
    { name := "code", type := .string, nullable := true, isUnique := true },
    { name := "shelf", type := .int },
    { name := "place", type := .int, nullable := true }]
  unique := [⟨"spot", ["shelf", "place"]⟩]

/-- A catalog with the table of books. -/
def books : Catalog where
  entries := [("Book", bookTable)]

/-- A database that was opened with the catalog in an empty store. -/
def booksOpened : Database where
  catalog := books
  store := { ((Store.empty 0).defineAll books.definitions).2 with lastId := 0 }
  keys := none

/-- The example is opened. -/
theorem openStore_books : openStore {} books ⟨0⟩ (Store.empty 0)
    = (.ok booksOpened, ((Store.empty 0).defineAll books.definitions).2) :=
  openStore_of_defineAll (by decide +kernel)

/-- A book on a shelf that has no code yet. -/
def book (id : Int64) (place : Value) : RowValues :=
  [("code", .null), ("id", .int id), ("place", place), ("shelf", .int 3)]

/-- The database after books are added, of which two are in no place. -/
def booksAdded : Database :=
  (execute .own (.create ⟨"Book", [book 1 (.int 1), book 2 .null, book 3 .null]⟩) booksOpened).2

/-- A request that gives all books one code. -/
def recoding : UpdateRequest := ⟨"Book", [("code", .string "A")], none⟩

/-- The codes that books would have after the request, if they were set freely. -/
def recoded (db : Database) : Option (List Cell) :=
  (Plan.update db.catalog recoding).toOption.bind fun q =>
    (db.store.updateFreely q).toOption.map fun free =>
      (records { db with store := free } "Book").map fun r => (r.datum "code").cell

/-- Where there are two books, both would have the code. -/
theorem breaks_recoding {db : Database} (hcatalog : db.catalog = books) {n : Nat}
    (hcodes : recoded db = some (List.replicate (n + 2) (.text "A"))) :
    db.Breaks (.update recoding) := by
  obtain ⟨q, hplan, hcodes⟩ := Option.bind_eq_some_iff.1 hcodes
  obtain ⟨free, hfree, hcodes⟩ := Option.map_eq_some_iff.1 hcodes
  have htable : db.catalog.table "Book" = .ok bookTable := by
    rw [hcatalog]
    rfl
  refine .update htable (Except.toOption_eq_some_iff.1 hplan)
    (Except.toOption_eq_some_iff.1 hfree) ?_
  intro hdiffer
  have hcolumn := hdiffer.column _ (List.mem_cons_of_mem _ List.mem_cons_self) rfl
  change List.Pairwise _ (records { db with store := free } "Book") at hcolumn
  generalize records { db with store := free } "Book" = found at hcodes hcolumn
  obtain _ | ⟨a, _ | ⟨b, found⟩⟩ := found
  · cases hcodes
  · simp [List.replicate_succ] at hcodes
  · obtain ⟨ha, hcodes⟩ := List.cons.inj hcodes
    obtain ⟨hb, -⟩ := List.cons.inj hcodes
    have hnull := (List.pairwise_cons.1 hcolumn).1 b List.mem_cons_self
    unfold Record.value at hnull
    dsimp only at ha hb hnull
    rw [ha, hb] at hnull
    cases hnull rfl

/-- All books are given one code, at once and after another book was added. -/
theorem differ_of_run_books :
    let recode : Command := .update recoding
    let add : Command := .create ⟨"Book", [book 4 (.int 4)]⟩
    Catalog.build books.tables = .ok books ∧
      (books.takenNames.Pairwise fun a b => sameName a b = false) ∧
      (openStore {} books ⟨0⟩ (Store.empty 0)).1 = .ok booksOpened ∧ Run booksOpened booksAdded ∧
      (booksAdded.records "Book").length = 3 ∧
      (∀ t ∈ books.tables, t.Differ (booksAdded.records t.name)) ∧ booksAdded.Breaks recode ∧
      IsRefused .own (run .own recode) id booksAdded ∧
      IsRefused .own (batch .own [add, recode]) (.batch 1) booksAdded := by
  intro recode add
  have hchecked : booksAdded.inTransaction = false ∧ (booksAdded.records "Book").length = 3 ∧
      recoded booksAdded = some (List.replicate 3 (.text "A")) ∧
      (inOrder (run .joined) 0 [add] (opened booksAdded)).1.isOk = true ∧
      recoded (inOrder (run .joined) 0 [add] (opened booksAdded)).2
        = some (List.replicate 4 (.text "A")) := by decide +kernel
  obtain ⟨hclosed, hlength, hcodes, hadded, hcodesLater⟩ := hchecked
  have hbuild : Catalog.build books.tables = .ok books := by rfl
  have hnames : books.takenNames.Pairwise fun a b => sameName a b = false := by decide +kernel
  have hrun : Run booksOpened booksAdded := .execute .own _ (.refl _)
  obtain ⟨hdiffer, hrefused⟩ := differ_of_run hbuild hnames rfl openStore_books hrun
  obtain ⟨halone, hbatch, -⟩ := hrefused .own fun _ => hclosed
  have hbreaks := breaks_recoding hrun.steps.isBeside.catalog hcodes
  obtain ⟨answers, hadded⟩ := Except.isOk_iff.1 hadded
  have hsteps := isStepwise_steps.inOrder (isStepwise_steps.run .joined) [add] 0 (opened booksAdded)
  generalize hmid : (inOrder (run .joined) 0 [add] (opened booksAdded)).2 = mid
    at hcodesLater hsteps
  have hbefore : inOrder (run .joined) 0 [add] (booksAdded.inside .own) = (.ok answers, mid) :=
    Prod.ext hadded hmid
  have hcatalog := ((hrun.steps.trans (steps_opened booksAdded)).trans hsteps).isBeside.catalog
  exact ⟨hbuild, hnames, by rw [openStore_books], hrun, hlength, hdiffer, hbreaks, halone recode hbreaks,
    hbatch [add] recode [] answers mid hbefore (breaks_recoding hcatalog hcodesLater)⟩

end Database

end Tabula
