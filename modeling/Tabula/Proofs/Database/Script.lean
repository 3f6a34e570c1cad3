import Tabula.Proofs.Database.Sequence
import Tabula.Proofs.Refusal

/-!
# What the body of a transaction does

The body of a transaction runs requests, batches and further transactions one after the other, with
the open transaction or without it, and goes on by the result of each. Main statement: a transaction
keeps exactly what its body did with the open transaction, or nothing of it; what the body tried
without it failed and changed no table; and no transaction is open afterwards
(`transaction_script`).
-/

namespace Tabula.Database

variable {α β : Type}

/-! ## Scripts -/

/-- What a caller can ask of a database at one point, with the type of the result. -/
inductive Act : Type → Type 1
  | execute (request : Request) : Act Answer
  | batch (commands : List Command) : Act (List CommandAnswer)

/-- Runs an act. -/
def Act.run (scoping : Scoping) : Act β → Operation β
  | .execute request => Database.execute scoping request
  | .batch commands => Database.batch scoping commands

/-- What the body of a transaction does: it comes to a result, or takes a step and goes on by the
result of that. A step is an act, in the open transaction or in one that is asked for, or it asks
for a transaction with a body of its own. -/
inductive Script : Type → Type 1
  | finish {α : Type} (result : Except Error α) : Script α
  | step {α β : Type} (scoping : Scoping) (act : Act β) (next : Except Error β → Script α) :
    Script α
  | nest {α β : Type} (inner : Script β) (next : Except Error β → Script α) : Script α

/-- Runs a script. -/
def Script.run : {α : Type} → Script α → Operation α
  | _, .finish result, db => (result, db)
  | _, .step scoping act next, db =>
    (next (act.run scoping db).1).run (act.run scoping db).2
  | _, .nest inner next, db =>
    (next (transaction inner.run db).1).run (transaction inner.run db).2

/-- A step that was taken: whether with the open transaction, what it did, and the database that it
found. -/
structure Taken where
  scoping : Scoping
  does : Operation Unit
  found : Database

/-- An operation of which the value is dropped. -/
def dropValue (operation : Operation α) : Operation Unit := mapResult (fun _ => ()) operation

/-- The steps that a script takes, in order. -/
def Script.taken : {α : Type} → Script α → Database → List Taken
  | _, .finish _, _ => []
  | _, .step scoping act next, db =>
    ⟨scoping, dropValue (act.run scoping), db⟩
      :: (next (act.run scoping db).1).taken (act.run scoping db).2
  | _, .nest inner next, db =>
    ⟨.own, dropValue (transaction inner.run), db⟩
      :: (next (transaction inner.run db).1).taken (transaction inner.run db).2

/-- The database that comes of the steps taken with the open transaction alone, one after the other.
Each draws keys from the source that it found, which steps without the transaction may have moved
on. -/
def replay (db : Database) : List Taken → Database
  | [] => db
  | step :: steps =>
    match step.scoping with
    | .joined => replay (step.does { db with keys := step.found.keys }).2 steps
    | .own => replay db steps

/-! ## Single steps -/

/-- Forgetting a value changes nothing of what was done. -/
@[simp] theorem dropValue_snd (operation : Operation α) (db : Database) :
    (dropValue operation db).2 = (operation db).2 := by
  unfold dropValue mapResult
  split <;> next heq => rw [heq]

/-- Nor does it change a failure. -/
theorem dropValue_eq_error {operation : Operation α} {db after : Database} {e : Error}
    (h : operation db = (.error e, after)) : dropValue operation db = (.error e, after) := by
  unfold dropValue mapResult
  rw [h]

/-- A transaction within an open one fails, whatever its body, and does nothing. -/
theorem transaction_of_inTransaction {db : Database} (h : db.inTransaction = true)
    (body : Operation α) :
    transaction body db = (.error (.request .transactionOpen), db) := by
  unfold transaction
  rw [if_pos h]

/-- Whether an operation fails within an open transaction, with no change but to the source of
keys. -/
def FailsWithin (operation : Operation α) : Prop :=
  ∀ db, db.inTransaction = true → ∃ e keys, operation db = (.error e, { db with keys })

/-- A transaction that is opened within another one fails. -/
theorem failsWithin_transaction (body : Operation α) : FailsWithin (transaction body) :=
  fun db hdb => ⟨_, db.keys, transaction_of_inTransaction hdb body⟩

/-- What is made of a result fails there if the result does. -/
theorem FailsWithin.mapResult {operation : Operation α} (h : FailsWithin operation) (f : α → β) :
    FailsWithin (mapResult f operation) := by
  intro db hdb
  obtain ⟨e, keys, heq⟩ := h db hdb
  refine ⟨e, keys, ?_⟩
  unfold Database.mapResult
  rw [heq]

/-- So does a create request that opens a transaction. -/
theorem failsWithin_create (r : CreateRequest) : FailsWithin (create .own r) := by
  intro db hdb
  unfold create
  cases db.catalog.table r.table with
  | error e => exact ⟨e, db.keys, rfl⟩
  | ok t =>
      -- The rows are planned, and keys drawn for them, before the transaction is asked for.
      dsimp only
      generalize planRows t ⟨suppliedKeys t r.rows, db.keys⟩ r.rows = planning
      obtain ⟨planned, p⟩ := planning
      cases planned with
      | error e => exact ⟨e, p.keys, rfl⟩
      | ok planned =>
          have hopen : ({ db with keys := p.keys } : Database).inTransaction = true := hdb
          exact ⟨_, p.keys, transaction_of_inTransaction hopen _⟩

/-- So does a read request that opens one. -/
theorem failsWithin_read (r : ReadRequest) : FailsWithin (read .own r) := by
  intro db hdb
  unfold read
  cases Plan.read db.catalog r with
  | error e => exact ⟨e, db.keys, rfl⟩
  | ok plan => exact failsWithin_transaction _ db hdb

/-- So does an update request that opens one. -/
theorem failsWithin_update (r : UpdateRequest) : FailsWithin (update .own r) := by
  intro db hdb
  unfold update
  cases Plan.update db.catalog r with
  | error e => exact ⟨e, db.keys, rfl⟩
  | ok q => exact failsWithin_transaction _ db hdb

/-- So does a delete request that opens one. -/
theorem failsWithin_delete (r : DeleteRequest) : FailsWithin (delete .own r) := by
  intro db hdb
  unfold delete
  cases Plan.delete db.catalog r with
  | error e => exact ⟨e, db.keys, rfl⟩
  | ok q => exact failsWithin_transaction _ db hdb

/-- An act that asks for a transaction of its own fails within an open one. -/
theorem Act.failsWithin (act : Act β) : FailsWithin (act.run .own) := by
  cases act with
  | batch commands => exact failsWithin_transaction _
  | execute request =>
      cases request with
      | create r => exact (failsWithin_create r).mapResult _
      | read r => exact (failsWithin_read r).mapResult _
      | update r => exact (failsWithin_update r).mapResult _
      | delete r => exact (failsWithin_delete r).mapResult _
      | batch commands => exact (failsWithin_transaction _).mapResult _

/-- No act changes the frame of a database. -/
theorem Act.frame (scoping : Scoping) (act : Act β) (db : Database) :
    Frame db (act.run scoping db).2 := by
  cases act with
  | execute request => exact isStepwise_frame.execute scoping request db
  | batch commands => exact isStepwise_frame.batch scoping commands db

/-- An act that joins the open transaction, or finds none open, does not fail for one. -/
theorem Act.failsWith {scoping : Scoping} (act : Act β) {db : Database}
    (hdb : scoping = .own → db.inTransaction = false) :
    (act.run scoping db).1.FailsWith Error.IsOther := by
  cases act with
  | execute request => exact failsWith_execute request hdb
  | batch commands => exact failsWith_batch commands hdb

/-! ## Runs of scripts -/

/-- What holds of every step that is taken in an open transaction. -/
structure Taken.IsOrderly (step : Taken) : Prop where
  inTransaction : step.found.inTransaction = true
  /-- Without the open transaction a step fails and changes no table. -/
  fails : step.scoping = .own →
    ∃ e keys, step.does step.found = (.error e, { step.found with keys })
  /-- With the open transaction a step does not fail because of it. -/
  joins : step.scoping = .joined → (step.does step.found).1.FailsWith Error.IsOther
  /-- A transaction in its place would not have run its body. -/
  excludes {α : Type} (body : Operation α) :
    transaction body step.found = (.error (.request .transactionOpen), step.found)

/-- An act in a transaction is orderly. -/
theorem Act.isOrderly (scoping : Scoping) (act : Act β) {db : Database}
    (hdb : db.inTransaction = true) :
    Taken.IsOrderly ⟨scoping, dropValue (act.run scoping), db⟩ where
  inTransaction := hdb
  fails := by
    rintro rfl
    obtain ⟨e, keys, h⟩ := act.failsWithin db hdb
    exact ⟨e, keys, dropValue_eq_error h⟩
  joins := by
    rintro rfl
    exact failsWith_mapResult _ (act.failsWith nofun)
  excludes := transaction_of_inTransaction hdb

/-- A transaction within a transaction is orderly. -/
theorem isOrderly_nest (body : Operation β) {db : Database} (hdb : db.inTransaction = true) :
    Taken.IsOrderly ⟨.own, dropValue (transaction body), db⟩ where
  inTransaction := hdb
  fails _ := ⟨_, db.keys, dropValue_eq_error (transaction_of_inTransaction hdb body)⟩
  joins := nofun
  excludes := transaction_of_inTransaction hdb

/-- All steps that a script takes are orderly. -/
theorem Script.isOrderly_of_mem_taken (script : Script α) {db : Database}
    (hdb : db.inTransaction = true) : ∀ step ∈ script.taken db, step.IsOrderly := by
  induction script generalizing db with
  | finish result => simp [taken]
  | step scoping act next ih =>
      have hafter := (act.frame scoping db).inTransaction.trans hdb
      rw [taken, List.forall_mem_cons]
      exact ⟨act.isOrderly scoping hdb, ih _ hafter⟩
  | nest inner next _ ih =>
      rw [taken, List.forall_mem_cons, transaction_of_inTransaction hdb]
      exact ⟨isOrderly_nest inner.run hdb, ih _ hdb⟩

/-- Scripts change rows, the id of the last row and the source of keys only. -/
theorem Script.frame (script : Script α) {db : Database} (hdb : db.inTransaction = true) :
    Frame db (script.run db).2 := by
  induction script generalizing db with
  | finish result => exact .refl db
  | step scoping act next ih =>
      have hstep := act.frame scoping db
      exact hstep.trans (ih _ (hstep.inTransaction.trans hdb))
  | nest inner next _ ih =>
      rw [run, transaction_of_inTransaction hdb]
      exact ih _ hdb

/-- Databases that differ in their source of keys only. -/
def SameButKeys (a b : Database) : Prop := { a with keys := b.keys } = b

/-- **The steps taken with the open transaction are all that a script does.** -/
theorem Script.run_eq_replay (script : Script α) {db start : Database}
    (hdb : db.inTransaction = true) (hstart : SameButKeys start db) :
    SameButKeys (replay start (script.taken db)) (script.run db).2 := by
  induction script generalizing db start with
  | finish result => exact hstart
  | step scoping act next ih =>
      have hafter := (act.frame scoping db).inTransaction.trans hdb
      rw [run, taken]
      cases scoping with
      | joined =>
          -- With the source of keys that it found, the step does the same in the replay.
          rw [replay, hstart, dropValue_snd]
          exact ih _ hafter rfl
      | own =>
          obtain ⟨e, keys, h⟩ := act.failsWithin db hdb
          rw [h] at hafter ⊢
          refine ih _ hafter ?_
          unfold SameButKeys at hstart ⊢
          rw [← hstart]
  | nest inner next _ ih =>
      rw [run, taken, transaction_of_inTransaction hdb]
      exact ih _ hdb hstart

/-- **A transaction keeps what its body did with it, or nothing.** If the body succeeds, the store is
that of the steps that were taken with the open transaction, applied in order; if it fails, all tables
are as they were. In either case every step without the transaction failed and changed no table, no
transaction is open afterwards, and what is asked of the database next runs and does not fail for an
open transaction. -/
theorem transaction_script (script : Script α) (db : Database) (hdb : db.inTransaction = false) :
    let steps := script.taken (opened db)
    let after := (transaction script.run db).2
    (∀ a, (script.run (opened db)).1 = .ok a →
      (transaction script.run db).1 = .ok a ∧ after.store = (replay (opened db) steps).store) ∧
    (∀ e, (script.run (opened db)).1 = .error e →
      (transaction script.run db).1 = .error e ∧ SameContents db after) ∧
    (∀ step ∈ steps, step.IsOrderly) ∧
    (after.inTransaction = false ∧ after.catalog = db.catalog) ∧
    (∀ (β : Type) (act : Act β), (act.run .own after).1.FailsWith Error.IsOther) ∧
    ∀ (β : Type) (body : Operation β), (transaction body after).1 = (body (opened after)).1 := by
  intro steps after
  obtain ⟨hok, herror⟩ := encloses_transaction script.run db hdb
  have hframe : Frame (opened db) (script.run (opened db)).2 := script.frame rfl
  have hafter : Frame db after := isStepwise_frame.transaction hframe
  have hclosed : after.inTransaction = false := hafter.inTransaction.trans hdb
  refine ⟨?_, ?_, script.isOrderly_of_mem_taken rfl, ⟨hclosed, hafter.catalog⟩, ?_, ?_⟩
  · intro a ha
    have hcommit := hok a _ (Prod.ext ha rfl)
    have hreplay : SameButKeys (replay (opened db) steps) (script.run (opened db)).2 :=
      script.run_eq_replay rfl rfl
    have hstore : (script.run (opened db)).2.store = (replay (opened db) steps).store :=
      (congrArg Database.store hreplay).symm
    exact ⟨congrArg Prod.fst hcommit, (congrArg (·.2.store) hcommit).trans hstore⟩
  · intro e he
    exact ⟨herror e he, sameContents_of_transaction_error hframe (herror e he)⟩
  · intro β act
    exact act.failsWith fun _ => hclosed
  · intro β body
    obtain ⟨hok, herror⟩ := encloses_transaction body after hclosed
    cases hbody : body (opened after) with
    | mk result last =>
        cases result with
        | ok b => rw [hok b last hbody]
        | error e => exact herror e (by rw [hbody])

/-- A script that adds rows in the open transaction, before and after two tries without it: the first
of them draws a key, the second has a body that would empty the table. -/
def mixed (result : Except Error Unit) : Script Unit :=
  let add (name : String) : Act Answer := .execute (.create ⟨"Shot", [[("name", .string name)]]⟩)
  let clear : Script Unit :=
    .step .joined (.execute (.delete ⟨"Shot", none⟩)) fun _ => .finish (.ok ())
  .step .joined (add "B") fun _ => .step .own (add "C") fun _ => .nest clear fun _ =>
    .step .joined (add "D") fun _ => .finish result

theorem transaction_script_mixed :
    let gaveUp : Error := .request (.abandoned "gave up")
    let ids (db : Database) := db.store.relations.map fun rel => rel.rows.map Store.Row.id
    sample.inTransaction = false ∧
      (transaction (mixed (.ok ())).run sample).1 = .ok () ∧
      ids (transaction (mixed (.ok ())).run sample).2 = [[1, 2, 4]] ∧
      (transaction (mixed (.error gaveUp)).run sample).1 = .error gaveUp ∧
      SameContents sample (transaction (mixed (.error gaveUp)).run sample).2 := by
  intro gaveUp ids
  have hclosed : sample.inTransaction = false := rfl
  obtain ⟨hcommits, -, -⟩ := transaction_script (mixed (.ok ())) sample hclosed
  obtain ⟨-, hundoes, -⟩ := transaction_script (mixed (.error gaveUp)) sample hclosed
  obtain ⟨hok, hstore⟩ := hcommits () rfl
  obtain ⟨herror, hsame⟩ := hundoes gaveUp rfl
  refine ⟨hclosed, hok, ?_, herror, hsame⟩
  dsimp only [ids]
  rw [hstore]
  decide +kernel

end Tabula.Database
