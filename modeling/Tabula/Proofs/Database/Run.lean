import Tabula.Proofs.Database.Rollback

/-!
# Runs

What can happen to a database while it is open: requests, batches and transactions, which succeed or
fail. All of it comes down to steps, each of them a statement that a request is planned to, or a
change of what is no table's. Main statement: what every step keeps is kept by every run
(`Run.keeps`).
-/

namespace Tabula.Database

/-! ## Steps -/

/-- What one statement of a planned request does to a database, or what happens beside its tables. -/
inductive Step (before : Database) : Database → Prop
  | insert {name : String} {t : Table} {values : RowValues} {q : Sql.Insert} {store : Store}
    (table_eq : before.catalog.table name = .ok t) (plan_eq : Plan.insert t values = .ok q)
    (insert_eq : before.store.insert q = .ok store) : Step before { before with store }
  | update {r : UpdateRequest} {q : Sql.Update} {store : Store} {count : Nat}
    (plan_eq : Plan.update before.catalog r = .ok q)
    (update_eq : before.store.update q = .ok (store, count)) : Step before { before with store }
  | delete {r : DeleteRequest} {q : Sql.Delete} {store : Store} {count : Nat}
    (plan_eq : Plan.delete before.catalog r = .ok q)
    (delete_eq : before.store.delete q = .ok (store, count)) : Step before { before with store }
  | aside (keys : Option KeySource) (inTransaction : Bool) (lastId now : Int64) :
    Step before { before with keys, inTransaction, store := { before.store with lastId, now } }

/-- Steps one after the other. -/
inductive Steps (start : Database) : Database → Prop
  | refl : Steps start start
  | tail {between last : Database} :
    Steps start between → Step between last → Steps start last

variable {db a b c : Database}

theorem Step.steps (h : Step a b) : Steps a b := .tail .refl h

/-- Steps go on from where others ended. -/
theorem Steps.trans (h : Steps a b) (h' : Steps b c) : Steps a c := by
  induction h' with
  | refl => exact h
  | tail _ hstep ih => exact .tail ih hstep

/-- What every step keeps is kept by steps one after the other. -/
theorem Steps.keeps {P : Database → Prop} (hstep : ∀ {a b}, Step a b → P a → P b) (h : Steps a b)
    (ha : P a) : P b := by
  induction h with
  | refl => exact ha
  | tail _ hlast ih => exact hstep hlast ih

/-- What steps never change. -/
structure IsBeside (before after : Database) : Prop where
  catalog : after.catalog = before.catalog
  entries : after.store.entries = before.store.entries
  standing : after.store.standing = before.store.standing

/-- A step changes nothing that stands beside the contents. -/
theorem Step.isBeside (h : Step a b) : IsBeside a b := by
  cases h with
  | insert _ _ hinsert =>
      have hframe := Store.frame_insert hinsert
      exact ⟨rfl, hframe.entries, hframe.standing⟩
  | update _ hupdate =>
      have hframe := Store.frame_update hupdate
      exact ⟨rfl, hframe.entries, hframe.standing⟩
  | delete _ hdelete =>
      have hframe := Store.frame_delete hdelete
      exact ⟨rfl, hframe.entries, hframe.standing⟩
  | aside => exact ⟨rfl, rfl, rfl⟩

/-- Nor do steps. -/
theorem Steps.isBeside (h : Steps a b) : IsBeside a b := by
  refine h.keeps (P := IsBeside a) ?_ ⟨rfl, rfl, rfl⟩
  intro b c hstep hb
  have hc := hstep.isBeside
  exact ⟨hc.catalog.trans hb.catalog, hc.entries.trans hb.entries, hc.standing.trans hb.standing⟩

/-- Opening a transaction is a step beside the contents. -/
theorem steps_opened (db : Database) : Steps db (opened db) :=
  (Step.aside db.keys true db.store.lastId db.store.now).steps

/-- So is closing one. -/
theorem steps_closed (db : Database) : Steps db (closed db) :=
  (Step.aside db.keys false db.store.lastId db.store.now).steps

/-- **Whatever operations do comes down to steps**, if what is undone is left out. -/
theorem isStepwise_steps : IsStepwise Steps where
  refl _ := .refl
  trans := .trans
  keys db keys := (Step.aside keys db.inTransaction db.store.lastId db.store.now).steps
  inserts ht hplan hinsert := (Step.insert ht hplan hinsert).steps
  updates hplan hupdate := (Step.update hplan hupdate).steps
  deletes hplan hdelete := (Step.delete hplan hdelete).steps
  commits _ h := ((steps_opened _).trans h).trans (steps_closed _)
  rollsBack := by
    intro db after _ h
    -- The rows of all tables are those from before, and no step has changed what else there is.
    obtain ⟨hcatalog, hentries, hstanding⟩ : IsBeside (opened db) after := h.isBeside
    show Steps db ⟨after.catalog, ⟨db.store.relations, after.store.entries, after.store.lastId,
      after.store.now, after.store.standing⟩, after.keys, false⟩
    rw [hcatalog, hentries, hstanding]
    exact (Step.aside after.keys false after.store.lastId after.store.now).steps

/-! ## Runs -/

/-- What can happen to a database while it is open. Operations succeed or fail; the body of a
transaction is any operation that does no more than run operations itself. -/
inductive Run : Database → Database → Prop
  | refl (db : Database) : Run db db
  | execute {a b : Database} (scoping : Scoping) (request : Request) :
    Run a b → Run a (execute scoping request b).2
  | batch {a b : Database} (scoping : Scoping) (commands : List Command) :
    Run a b → Run a (batch scoping commands b).2
  | transaction {a b : Database} {α : Type} {body : Operation α} :
    (∀ db, Run db (body db).2) → Run a b → Run a (transaction body b).2
  /-- What the body of a transaction finds. -/
  | opening {a b : Database} : Run a b → Run a (opened b)
  /-- Time passes. -/
  | waiting {a b : Database} (now : Int64) :
    Run a b → Run a { b with store := { b.store with now } }

/-- Every run comes down to steps. -/
theorem Run.steps (h : Run a b) : Steps a b := by
  induction h with
  | refl db => exact .refl
  | execute scoping request _ ih => exact ih.trans (isStepwise_steps.execute scoping request _)
  | batch scoping commands _ ih => exact ih.trans (isStepwise_steps.batch scoping commands _)
  | transaction _ _ hbody ih => exact ih.trans (isStepwise_steps.transaction (hbody _))
  | opening _ ih => exact ih.trans (steps_opened _)
  | @waiting _ b now _ ih => exact .tail ih (.aside b.keys b.inTransaction b.store.lastId now)

/-- **What every step keeps is kept by every run.** -/
theorem Run.keeps {P : Database → Prop} (hstep : ∀ {a b}, Step a b → P a → P b) (h : Run a b)
    (ha : P a) : P b :=
  h.steps.keeps hstep ha

end Tabula.Database
