import Tabula.Proofs.Database.Stepwise
import Tabula.Proofs.Store.Tables

/-!
# Failed operations

Operations change the rows of tables, the id of the last row and the source of keys, and nothing
else of a database. Main statement: an operation in a transaction of its own that fails leaves the
contents of all tables as they were, however far it had come (`sameContents_of_error`).
-/

namespace Tabula

namespace Database

variable {α β : Type}

/-! ## What operations leave alone -/

/-- What operations never change of a database. -/
structure Frame (before after : Database) : Prop where
  catalog : after.catalog = before.catalog
  inTransaction : after.inTransaction = before.inTransaction
  store : Store.Frame before.store after.store

theorem Frame.refl (db : Database) : Frame db db := ⟨rfl, rfl, .refl _⟩

theorem Frame.trans {a b c : Database} (h : Frame a b) (h' : Frame b c) : Frame a c :=
  ⟨h'.catalog.trans h.catalog, h'.inTransaction.trans h.inTransaction, h.store.trans h'.store⟩

/-- A database whose tables have the same rows; the source of keys and the id of the last row may
differ. -/
structure SameContents (before after : Database) : Prop extends Frame before after where
  relations : after.store.relations = before.store.relations

theorem SameContents.refl (db : Database) : SameContents db db := ⟨.refl db, rfl⟩

/-- Whether an operation keeps the frame of every database. -/
def IsFramed (operation : Operation α) : Prop := ∀ db, Frame db (operation db).2

/-- Whether an operation that fails leaves the contents of all tables as they were. -/
def IsAtomic (operation : Operation α) : Prop :=
  ∀ db e, (operation db).1 = .error e → SameContents db (operation db).2

/-- The frame holds over all that operations come down to. -/
theorem isStepwise_frame : IsStepwise Frame where
  refl := .refl
  trans := .trans
  keys _ _ := ⟨rfl, rfl, .refl _⟩
  inserts _ _ hinsert := ⟨rfl, rfl, Store.frame_insert hinsert⟩
  updates _ hupdate := ⟨rfl, rfl, Store.frame_update hupdate⟩
  deletes _ hdelete := ⟨rfl, rfl, Store.frame_delete hdelete⟩
  commits hclosed h := ⟨h.catalog, hclosed.symm, h.store⟩
  rollsBack hclosed h := ⟨h.catalog, hclosed.symm,
    ⟨h.store.entries, h.store.now, h.store.standing, fun _ => rfl⟩⟩

/-- No command changes the frame of a database. -/
theorem isFramed_run (scoping : Scoping) (command : Command) : IsFramed (run scoping command) :=
  isStepwise_frame.run scoping command

/-- Nor does a command that is given as JSON. -/
theorem isFramed_runJson (raw : Json) : IsFramed (runJson raw) := isStepwise_frame.runJson raw

/-- Requests change rows, the id of the last row and the source of keys only. -/
theorem isFramed_execute (scoping : Scoping) (request : Request) :
    IsFramed (execute scoping request) :=
  isStepwise_frame.execute scoping request

/-! ## Operations that fail -/

/-- A transaction that fails restores the rows of all tables. -/
theorem sameContents_of_transaction_error {body : Operation α} {db : Database}
    (h : Frame (opened db) (body (opened db)).2) {e : Error}
    (he : (transaction body db).1 = .error e) : SameContents db (transaction body db).2 := by
  refine ⟨isStepwise_frame.transaction h, ?_⟩
  unfold transaction at he ⊢
  split
  · rfl
  · next hclosed =>
      rw [if_neg hclosed] at he
      split
      · next a after heq => simp [heq] at he
      · rfl

/-- A transaction of its own is atomic. -/
theorem isAtomic_transaction {body : Operation α} (h : IsFramed body) :
    IsAtomic (transaction body) :=
  fun db _ he => sameContents_of_transaction_error (h (opened db)) he

/-- What is made of an atomic result is atomic. -/
theorem isAtomic_mapResult {operation : Operation α} (f : α → β) (h : IsAtomic operation) :
    IsAtomic (mapResult f operation) := by
  intro db e he
  have hdb := h db
  unfold mapResult at he ⊢
  split
  · next a after heq => simp [heq] at he
  · next e' after heq => simpa [heq] using hdb e'

/-- A create request is atomic in its own transaction. -/
theorem isAtomic_create (r : CreateRequest) : IsAtomic (create .own r) := by
  intro db e he
  unfold create at he ⊢
  split
  · exact .refl db
  · next t ht =>
      rw [ht] at he
      dsimp only at he ⊢
      cases hplan : planRows t ⟨suppliedKeys t r.rows, db.keys⟩ r.rows with
      | mk planned p =>
          rw [hplan] at he
          cases planned with
          | error cause => exact ⟨⟨rfl, rfl, .refl _⟩, rfl⟩
          | ok planned =>
              have ht : (opened { db with keys := p.keys }).catalog.table r.table = .ok t := ht
              have hrows := isStepwise_frame.addRows ht (exists_of_planRows hplan)
              have h := sameContents_of_transaction_error hrows he
              exact ⟨⟨h.catalog, h.inTransaction, h.store⟩, h.relations⟩

/-- So is a read request. -/
theorem isAtomic_read (r : ReadRequest) : IsAtomic (read .own r) := by
  intro db e he
  unfold read at he ⊢
  split
  · exact .refl db
  · next plan hplan =>
      rw [hplan] at he
      exact sameContents_of_transaction_error (.refl _) he

/-- So is an update request. -/
theorem isAtomic_update (r : UpdateRequest) : IsAtomic (update .own r) := by
  intro db e he
  unfold update at he ⊢
  split
  · exact .refl db
  · next q hplan =>
      rw [hplan] at he
      exact sameContents_of_transaction_error (isStepwise_frame.change_update hplan) he

/-- So is a delete request. -/
theorem isAtomic_delete (r : DeleteRequest) : IsAtomic (delete .own r) := by
  intro db e he
  unfold delete at he ⊢
  split
  · exact .refl db
  · next q hplan =>
      rw [hplan] at he
      exact sameContents_of_transaction_error (isStepwise_frame.change_delete hplan) he

/-- So is every command. -/
theorem isAtomic_run (command : Command) : IsAtomic (run .own command) := by
  cases command with
  | create r => exact isAtomic_mapResult _ (isAtomic_create r)
  | update r => exact isAtomic_mapResult _ (isAtomic_update r)
  | delete r => exact isAtomic_mapResult _ (isAtomic_delete r)

/-- So is a batch. -/
theorem isAtomic_batch (commands : List Command) : IsAtomic (batch .own commands) :=
  isAtomic_transaction (isStepwise_frame.inOrder (isFramed_run .joined) commands 0)

/-- So is a batch that is given as JSON. -/
theorem isAtomic_batchJson (commands : List Json) : IsAtomic (batchJson .own commands) :=
  isAtomic_transaction (isStepwise_frame.inOrder isFramed_runJson commands 0)

/-- So is every request. -/
theorem isAtomic_execute (request : Request) : IsAtomic (execute .own request) := by
  cases request with
  | create r => exact isAtomic_mapResult _ (isAtomic_create r)
  | read r => exact isAtomic_mapResult _ (isAtomic_read r)
  | update r => exact isAtomic_mapResult _ (isAtomic_update r)
  | delete r => exact isAtomic_mapResult _ (isAtomic_delete r)
  | batch commands => exact isAtomic_mapResult _ (isAtomic_batchJson commands)

/-- **A failure leaves no trace in the tables.** A request, or a list of commands run as one, that
is executed in a transaction of its own and fails leaves the contents of every table as they were,
and the catalog, the table of contents and the standing of the store with them. -/
theorem sameContents_of_error (db : Database) :
    (∀ request e, (execute .own request db).1 = .error e →
      SameContents db (execute .own request db).2) ∧
    (∀ commands e, (batch .own commands db).1 = .error e →
      SameContents db (batch .own commands db).2) := by
  constructor
  · intro request e he
    exact isAtomic_execute request db e he
  · intro commands e he
    exact isAtomic_batch commands db e he

/-- A database with one table and one row in it. -/
def sample : Database where
  catalog := ⟨[("Shot", {
    name := "Shot"
    columns := [{ name := "id", type := .int, isKey := true }, { name := "name", type := .string }]
  })]⟩
  store := { Store.empty 0 with
    relations := [{
      name := "Shot"
      fields := [⟨"id", .integer, false, .cell .null⟩, ⟨"name", .text, true, .cell .null⟩]
      idField := some 0
      indexes := []
      rows := [⟨1, [.int 1, .text "A"]⟩] }] }
  keys := some (.sequence 2)

/-- A row is added, then a command names no table. -/
theorem sameContents_of_error_second :
    let commands : List Command :=
      [.create ⟨"Shot", [[("name", .string "B")]]⟩, .delete ⟨"Nowhere", none⟩]
    (batch .own commands sample).1 = .error (.batch 1 (.schema (.unknownTable "Nowhere"))) ∧
      SameContents sample (batch .own commands sample).2 := by
  intro commands
  have he : (batch .own commands sample).1
      = .error (.batch 1 (.schema (.unknownTable "Nowhere"))) := by rfl
  exact ⟨he, (sameContents_of_error sample).2 commands _ he⟩

end Database

end Tabula
