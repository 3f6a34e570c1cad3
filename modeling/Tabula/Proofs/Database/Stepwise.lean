import Tabula.Database.Batch
import Tabula.Proofs.Result

/-!
# What operations come down to

Whatever an operation does to a database comes down to single statements that were planned, to a new
source of keys, and to transactions that last or are undone. Main statement: a relation that holds
over each of these holds between a database and what is left of it by any request
(`IsStepwise.execute`).
-/

namespace Tabula.Database

variable {α β γ : Type}

/-- A database with a transaction open. -/
def opened (db : Database) : Database := { db with inTransaction := true }

/-- A database without an open transaction. -/
def closed (db : Database) : Database := { db with inTransaction := false }

/-- A database with the tables of another and without an open transaction. -/
def undone (db after : Database) : Database :=
  { after with
    inTransaction := false
    store := { after.store with relations := db.store.relations } }

/-- Whether a relation between databases holds over all that operations come down to. -/
structure IsStepwise (R : Database → Database → Prop) : Prop where
  refl (db : Database) : R db db
  trans {a b c : Database} : R a b → R b c → R a c
  keys (db : Database) (keys : Option KeySource) : R db { db with keys }
  inserts {db : Database} {name : String} {t : Table} {values : RowValues} {q : Sql.Insert}
    {store : Store} : db.catalog.table name = .ok t → Plan.insert t values = .ok q →
    db.store.insert q = .ok store → R db { db with store }
  updates {db : Database} {r : UpdateRequest} {q : Sql.Update} {store : Store} {count : Nat} :
    Plan.update db.catalog r = .ok q → db.store.update q = .ok (store, count) →
    R db { db with store }
  deletes {db : Database} {r : DeleteRequest} {q : Sql.Delete} {store : Store} {count : Nat} :
    Plan.delete db.catalog r = .ok q → db.store.delete q = .ok (store, count) →
    R db { db with store }
  commits {db after : Database} : db.inTransaction = false → R (opened db) after →
    R db (closed after)
  rollsBack {db after : Database} : db.inTransaction = false → R (opened db) after →
    R db (undone db after)

/-- Planned rows are planned one by one. -/
theorem exists_of_planRows {t : Table} {p after : Planning} {rows : List RowValues}
    {planned : List PlannedRow} (h : planRows t p rows = (.ok planned, after)) :
    ∀ row ∈ planned, ∃ values, Plan.insert t values = .ok row.statement := by
  induction rows generalizing p planned after with
  | nil =>
      obtain rfl := Except.ok.inj (Prod.mk.inj h).1
      simp
  | cons row rows ih =>
      unfold planRows at h
      split at h
      · cases (Prod.mk.inj h).1
      next values key p hsettled =>
      split at h
      · cases (Prod.mk.inj h).1
      next statement hstatement =>
      split at h
      · next others p hothers =>
          obtain rfl := Except.ok.inj (Prod.mk.inj h).1
          intro row hrow
          rcases List.mem_cons.1 hrow with rfl | hrow
          · exact ⟨values, hstatement⟩
          · exact ih hothers row hrow
      · cases (Prod.mk.inj h).1

/-- An operation that succeeds, in the open transaction or in its own, does what its body does. -/
theorem within_eq_ok {Keys : Type} {scoping : Scoping} {body : Operation α Keys}
    {db after : Database Keys} {a : α} (h : within scoping body db = (.ok a, after)) :
    ∃ start last, body start = (.ok a, last) ∧ start.catalog = db.catalog ∧ start.store = db.store ∧
      after.store = last.store ∧ (scoping = .joined ∨ db.inTransaction = false) := by
  cases scoping with
  | joined => exact ⟨db, after, h, rfl, rfl, rfl, .inl rfl⟩
  | own =>
      have h : transaction body db = (.ok a, after) := h
      unfold transaction at h
      split at h
      · cases (Prod.mk.inj h).1
      next hclosed =>
      split at h
      · next b last hbody =>
          obtain ⟨hb, rfl⟩ := Prod.mk.inj h
          obtain rfl := Except.ok.inj hb
          exact ⟨_, last, hbody, rfl, rfl, rfl, .inr (by simpa using hclosed)⟩
      · cases (Prod.mk.inj h).1

namespace IsStepwise

variable {R : Database → Database → Prop} {db : Database}

/-! ## Transactions -/

/-- What relates the states of a body relates those of its transaction. -/
theorem transaction (hR : IsStepwise R) {body : Operation α}
    (h : R (opened db) (body (opened db)).2) : R db (transaction body db).2 := by
  unfold Database.transaction
  split
  · exact hR.refl db
  · next hclosed =>
      have hclosed : db.inTransaction = false := by simpa using hclosed
      rw [show { db with inTransaction := true } = opened db from rfl]
      cases hbody : body (opened db) with
      | mk result after =>
          rw [hbody] at h
          cases result with
          | ok a => exact hR.commits hclosed h
          | error e => exact hR.rollsBack hclosed h

/-- So it does however the body is scoped. -/
theorem within (hR : IsStepwise R) {body : Operation α}
    (h : ∀ start, start.catalog = db.catalog → R start (body start).2) (scoping : Scoping) :
    R db (within scoping body db).2 := by
  cases scoping with
  | joined => exact h db rfl
  | own => exact hR.transaction (h (opened db) rfl)

/-- Changing a result changes no state. -/
theorem mapResult {operation : Operation α} (f : α → β) (h : R db (operation db).2) :
    R db (mapResult f operation db).2 := by
  unfold Database.mapResult
  split <;> next heq => simpa [heq] using h

/-! ## Create, read, update and delete -/

/-- Adding planned rows goes step by step. -/
theorem addRows (hR : IsStepwise R) {name : String} {t : Table}
    (ht : db.catalog.table name = .ok t) {rows : List PlannedRow}
    (hplanned : ∀ row ∈ rows, ∃ values, Plan.insert t values = .ok row.statement) :
    R db (addRows rows db).2 := by
  induction rows generalizing db with
  | nil => exact hR.refl db
  | cons row rows ih =>
      obtain ⟨⟨values, hvalues⟩, hrest⟩ := List.forall_mem_cons.1 hplanned
      unfold Database.addRows addRow
      cases hinsert : db.store.insert row.statement with
      | error e => exact hR.refl db
      | ok store =>
          have hfirst : R db { db with store } := hR.inserts ht hvalues hinsert
          have hothers : R { db with store } (Database.addRows rows { db with store }).2 :=
            ih ht hrest
          have hrows := hR.trans hfirst hothers
          dsimp only
          split <;> next heq => simpa [heq] using hrows

/-- A create request goes step by step. -/
theorem create (hR : IsStepwise R) (scoping : Scoping) (r : CreateRequest) (db : Database) :
    R db (create scoping r db).2 := by
  unfold Database.create
  split
  · exact hR.refl db
  · next t ht =>
      dsimp only
      cases hplanned : planRows t ⟨suppliedKeys t r.rows, db.keys⟩ r.rows with
      | mk planned p =>
          -- Planning moves the source of keys on, whether it succeeds or not.
          have hkeys := hR.keys db p.keys
          cases planned with
          | error e => exact hkeys
          | ok planned =>
              refine hR.trans hkeys (hR.within (fun start hstart => ?_) scoping)
              have ht : start.catalog.table r.table = .ok t := by rw [hstart, ht]
              exact hR.addRows ht (exists_of_planRows hplanned)

/-- A read request goes step by step. -/
theorem read (hR : IsStepwise R) (scoping : Scoping) (r : ReadRequest) (db : Database) :
    R db (read scoping r db).2 := by
  unfold Database.read
  split
  · exact hR.refl db
  · exact hR.within (fun start _ => hR.refl start) scoping

/-- An update statement is a step. -/
theorem change_update (hR : IsStepwise R) {r : UpdateRequest} {q : Sql.Update}
    (hplan : Plan.update db.catalog r = .ok q) : R db (change (·.update q) db).2 := by
  unfold change
  split
  · next store count hupdate => exact hR.updates hplan hupdate
  · exact hR.refl db

/-- A delete statement is a step. -/
theorem change_delete (hR : IsStepwise R) {r : DeleteRequest} {q : Sql.Delete}
    (hplan : Plan.delete db.catalog r = .ok q) : R db (change (·.delete q) db).2 := by
  unfold change
  split
  · next store count hdelete => exact hR.deletes hplan hdelete
  · exact hR.refl db

/-- An update request goes step by step. -/
theorem update (hR : IsStepwise R) (scoping : Scoping) (r : UpdateRequest) (db : Database) :
    R db (Database.update scoping r db).2 := by
  unfold Database.update
  split
  · exact hR.refl db
  · next q hplan =>
      refine hR.within (fun start hstart => ?_) scoping
      rw [← hstart] at hplan
      exact hR.change_update hplan

/-- A delete request goes step by step. -/
theorem delete (hR : IsStepwise R) (scoping : Scoping) (r : DeleteRequest) (db : Database) :
    R db (Database.delete scoping r db).2 := by
  unfold Database.delete
  split
  · exact hR.refl db
  · next q hplan =>
      refine hR.within (fun start hstart => ?_) scoping
      rw [← hstart] at hplan
      exact hR.change_delete hplan

/-! ## Batches and whole requests -/

/-- Every command goes step by step. -/
theorem run (hR : IsStepwise R) (scoping : Scoping) (command : Command) (db : Database) :
    R db (run scoping command db).2 := by
  cases command with
  | create r => exact mapResult _ (hR.create scoping r db)
  | update r => exact mapResult _ (hR.update scoping r db)
  | delete r => exact mapResult _ (hR.delete scoping r db)

/-- So does a command that is given as JSON. -/
theorem runJson (hR : IsStepwise R) (raw : Json) (db : Database) : R db (runJson raw db).2 := by
  unfold Database.runJson
  split
  · next command _ => exact hR.run .joined command db
  · exact hR.refl db

/-- A relation that holds over each of some operations holds over all of them in order. -/
theorem inOrder (hR : IsStepwise R) {step : γ → Operation β}
    (h : ∀ item db, R db (step item db).2) (items : List γ) (index : Nat) (db : Database) :
    R db (inOrder step index items db).2 := by
  induction items generalizing index db with
  | nil => exact hR.refl db
  | cons item items ih =>
      have hitem := h item db
      unfold Database.inOrder
      split
      · next e after heq => simpa [heq] using hitem
      · next b between heq =>
          rw [heq] at hitem
          have hitems := hR.trans hitem (ih (index + 1) between)
          split <;> next heq => simpa [heq] using hitems

/-- So does a batch. -/
theorem batch (hR : IsStepwise R) (scoping : Scoping) (commands : List Command) (db : Database) :
    R db (batch scoping commands db).2 :=
  hR.within (fun start _ => hR.inOrder (hR.run .joined) commands 0 start) scoping

/-- So does a batch that is given as JSON. -/
theorem batchJson (hR : IsStepwise R) (scoping : Scoping) (commands : List Json) (db : Database) :
    R db (batchJson scoping commands db).2 :=
  hR.within (fun start _ => hR.inOrder hR.runJson commands 0 start) scoping

/-- **A stepwise relation holds over every request.** -/
theorem execute (hR : IsStepwise R) (scoping : Scoping) (request : Request) (db : Database) :
    R db (execute scoping request db).2 := by
  cases request with
  | create r => exact mapResult _ (hR.create scoping r db)
  | read r => exact mapResult _ (hR.read scoping r db)
  | update r => exact mapResult _ (hR.update scoping r db)
  | delete r => exact mapResult _ (hR.delete scoping r db)
  | batch commands => exact mapResult _ (hR.batchJson scoping commands db)

end IsStepwise

end Tabula.Database
