import Tabula.Proofs.Database.Rollback

/-!
# Batches and single commands

A batch runs its commands in one transaction, where a caller who sends them one by one has a
transaction for each. Main statement: the two give the same answers, leave the same database, and
fail at the same command for the same reason (`batchJson_eq_oneByOne`).
-/

namespace Tabula.Database

variable {α β : Type}

/-! ## Commands one by one -/

/-- Decodes a command and runs it alone, in a transaction of its own. -/
def runAlone (raw : Json) : Operation CommandAnswer := fun db =>
  match Command.ofJson raw with
  | .ok command => run .own command db
  | .error e => (.error e, db)

/-- Runs commands alone in order, up to the first that fails: its position and error are then the
result. -/
def oneByOne (index : Nat) :
    List Json → Database → Except (Nat × Error) (List CommandAnswer) × Database
  | [], db => (.ok [], db)
  | raw :: raws, db =>
    match runAlone raw db with
    | (.error e, db) => (.error (index, e), db)
    | (.ok answer, db) =>
      match oneByOne (index + 1) raws db with
      | (.ok answers, db) => (.ok (answer :: answers), db)
      | (.error e, db) => (.error e, db)

/-! ## One transaction for another -/

/-- There is no transaction to close where none is open. -/
theorem closed_of_not_inTransaction {db : Database} (h : db.inTransaction = false) :
    closed db = db := by
  cases db
  simp_all [closed]

/-- There is none to open where one is. -/
theorem opened_of_inTransaction {db : Database} (h : db.inTransaction = true) :
    opened db = db := by
  cases db
  simp_all [opened]

/-- Whether an operation does in a transaction of its own what another does in an open one. -/
def Encloses (own joined : Operation α) : Prop :=
  ∀ db, db.inTransaction = false →
    (∀ a after, joined (opened db) = (.ok a, after) → own db = (.ok a, closed after)) ∧
    ∀ e, (joined (opened db)).1 = .error e → (own db).1 = .error e

/-- A transaction encloses its body. -/
theorem encloses_transaction (body : Operation α) : Encloses (transaction body) body := by
  intro db hdb
  unfold transaction
  rw [if_neg (by simp [hdb])]
  constructor
  · intro a after h
    rw [opened] at h
    rw [h, closed]
  · intro e h
    rw [opened] at h
    split
    · next heq => simp [heq] at h
    · next heq => simpa [heq] using h

/-- Changing results does not change what encloses what. -/
theorem encloses_mapResult {own joined : Operation α} (f : α → β) (h : Encloses own joined) :
    Encloses (mapResult f own) (mapResult f joined) := by
  intro db hdb
  obtain ⟨hok, herror⟩ := h db hdb
  unfold mapResult
  constructor
  · intro b after hb
    split at hb
    · next a between heq =>
        obtain ⟨rfl, rfl⟩ := by simpa using hb
        rw [hok a between heq]
    · simp at hb
  · intro e he
    split at he
    · simp at he
    · next e' between heq =>
        obtain rfl : e' = e := by simpa using he
        have hown := herror e' (by rw [heq])
        split
        · next heq => simp [heq] at hown
        · next heq => simpa [heq] using hown

/-- A create request in its own transaction encloses the one that joins it. -/
theorem encloses_create (r : CreateRequest) : Encloses (create .own r) (create .joined r) := by
  intro db hdb
  unfold create
  have hcatalog : (opened db).catalog = db.catalog := rfl
  have hkeys : (opened db).keys = db.keys := rfl
  rw [hcatalog, hkeys]
  cases db.catalog.table r.table with
  | error e =>
      dsimp only
      exact ⟨fun a after h => by simp at h, fun e h => h⟩
  | ok t =>
      dsimp only
      -- Planning is the same before either transaction, and moves the key source on in both.
      generalize planRows t ⟨suppliedKeys t r.rows, db.keys⟩ r.rows = planning
      obtain ⟨planned, p⟩ := planning
      cases planned with
      | error e => exact ⟨fun a after h => by simp at h, fun e h => h⟩
      | ok planned => exact encloses_transaction (addRows planned) { db with keys := p.keys } hdb

/-- So does an update request. -/
theorem encloses_update (r : UpdateRequest) : Encloses (update .own r) (update .joined r) := by
  intro db hdb
  unfold update
  have hcatalog : (opened db).catalog = db.catalog := rfl
  rw [hcatalog]
  cases Plan.update db.catalog r with
  | error e => exact ⟨fun a after h => by simp at h, fun e h => h⟩
  | ok statement => exact encloses_transaction (change (·.update statement)) db hdb

/-- So does a delete request. -/
theorem encloses_delete (r : DeleteRequest) : Encloses (delete .own r) (delete .joined r) := by
  intro db hdb
  unfold delete
  have hcatalog : (opened db).catalog = db.catalog := rfl
  rw [hcatalog]
  cases Plan.delete db.catalog r with
  | error e => exact ⟨fun a after h => by simp at h, fun e h => h⟩
  | ok statement => exact encloses_transaction (change (·.delete statement)) db hdb

/-- So does every command. -/
theorem encloses_run (command : Command) :
    Encloses (run .own command) (run .joined command) := by
  cases command with
  | create r => exact encloses_mapResult _ (encloses_create r)
  | update r => exact encloses_mapResult _ (encloses_update r)
  | delete r => exact encloses_mapResult _ (encloses_delete r)

/-- So does a command that is given as JSON. -/
theorem encloses_runAlone (raw : Json) : Encloses (runAlone raw) (runJson raw) := by
  intro db hdb
  unfold runAlone runJson
  cases Command.ofJson raw with
  | error e => exact ⟨fun a after h => by simp at h, fun e h => h⟩
  | ok command => exact encloses_run command db hdb

/-! ## The sequential run -/

/-- A joined command leaves the transaction open. -/
theorem inTransaction_runJson (raw : Json) (db : Database) :
    (runJson raw db).2.inTransaction = db.inTransaction :=
  (isFramed_runJson raw db).inTransaction

/-- Commands that succeed one by one succeed in one transaction, with the same answers and the same
database. -/
theorem inOrder_of_oneByOne_ok {raws : List Json} {index : Nat} {db after : Database}
    {answers : List CommandAnswer} (hdb : db.inTransaction = false)
    (h : oneByOne index raws db = (.ok answers, after)) :
    inOrder runJson index raws (opened db) = (.ok answers, opened after) ∧
      after.inTransaction = false := by
  induction raws generalizing index db answers with
  | nil =>
      obtain ⟨rfl, rfl⟩ := by simpa [oneByOne] using h
      exact ⟨rfl, hdb⟩
  | cons raw raws ih =>
      obtain ⟨hok, herror⟩ := encloses_runAlone raw db hdb
      have hopen : (runJson raw (opened db)).2.inTransaction = true :=
        inTransaction_runJson raw (opened db)
      unfold oneByOne at h
      unfold inOrder
      generalize hjoined : runJson raw (opened db) = outcome
      rw [hjoined] at hopen
      obtain ⟨result, between⟩ := outcome
      cases result with
      | error e =>
          have halone := herror e (by rw [hjoined])
          split at h
          · simp at h
          · next heq => simp [heq] at halone
      | ok answer =>
          rw [hok answer between hjoined] at h
          dsimp only at h hopen ⊢
          -- The rest runs in the transaction that the command has left open.
          split at h
          · next rest last heq =>
              obtain ⟨rfl, rfl⟩ := by simpa using h
              obtain ⟨hrest, hlast⟩ := ih rfl heq
              have hopen : between.inTransaction = true := hopen
              have hbetween : opened (closed between) = between := opened_of_inTransaction hopen
              rw [hbetween] at hrest
              rw [hrest]
              exact ⟨rfl, hlast⟩
          · simp at h

/-- Commands that fail one by one fail in one transaction, at the same position and for the same
reason. -/
theorem inOrder_of_oneByOne_error {raws : List Json} {index position : Nat} {db : Database}
    {e : Error} (hdb : db.inTransaction = false)
    (h : (oneByOne index raws db).1 = .error (position, e)) :
    (inOrder runJson index raws (opened db)).1 = .error (.batch position e) := by
  -- By induction on the items: one by one, a transaction is closed after each and opened for the
  -- next, which leaves what a transaction that stays open would have.
  induction raws generalizing index db with
  | nil => simp [oneByOne] at h
  | cons raw raws ih =>
      obtain ⟨hok, herror⟩ := encloses_runAlone raw db hdb
      have hopen : (runJson raw (opened db)).2.inTransaction = true :=
        inTransaction_runJson raw (opened db)
      unfold oneByOne at h
      unfold inOrder
      generalize hjoined : runJson raw (opened db) = outcome
      rw [hjoined] at hopen
      obtain ⟨result, between⟩ := outcome
      cases result with
      | error e' =>
          have halone := herror e' (by rw [hjoined])
          split at h
          · next heq =>
              rw [heq] at halone
              obtain rfl := Except.error.inj halone
              obtain ⟨rfl, rfl⟩ := by simpa using h
              rfl
          · next heq => simp [heq] at halone
      | ok answer =>
          rw [hok answer between hjoined] at h
          dsimp only at h hopen ⊢
          have hrest : (oneByOne (index + 1) raws (closed between)).1 = .error (position, e) := by
            split at h
            · simp at h
            · next heq => simpa [heq] using h
          have hopen : between.inTransaction = true := hopen
          have hbetween : opened (closed between) = between := opened_of_inTransaction hopen
          have hfails := ih rfl hrest
          rw [hbetween] at hfails
          split
          · next heq => simp [heq] at hfails
          · next heq => simpa [heq] using hfails

/-- A command is run from its JSON as it is. -/
theorem runJson_eq {raw : Json} {command : Command} (h : Command.ofJson raw = .ok command)
    (db : Database) : runJson raw db = run .joined command db := by
  unfold runJson
  rw [h]

/-- Decoding commands before they run or as they run is the same if all of them decode. -/
theorem inOrder_runJson {raws : List Json} {commands : List Command}
    (h : List.Forall₂ (fun raw command => Command.ofJson raw = .ok command) raws commands)
    (index : Nat) (db : Database) :
    inOrder (run .joined) index commands db = inOrder runJson index raws db := by
  induction h generalizing index db with
  | nil => rfl
  | @cons raw command raws commands hraw _ ih =>
      unfold inOrder
      rw [runJson_eq hraw]
      split
      · rfl
      · rw [ih]

/-- **A batch is its commands one by one.** Where no transaction is open, a batch gives the answers
and leaves the database of commands that succeed alone, one after the other; if one of them fails,
the batch fails at its position with its error. A batch of commands that are decoded beforehand
does the same. -/
theorem batchJson_eq_oneByOne (raws : List Json) (db : Database) (hdb : db.inTransaction = false) :
    (∀ answers after, oneByOne 0 raws db = (.ok answers, after) →
      batchJson .own raws db = (.ok answers, after)) ∧
    (∀ position e, (oneByOne 0 raws db).1 = .error (position, e) →
      (batchJson .own raws db).1 = .error (.batch position e)) ∧
    (∀ commands, raws.mapM Command.ofJson = .ok commands →
      batch .own commands db = batchJson .own raws db) := by
  obtain ⟨hok, herror⟩ := encloses_transaction (inOrder runJson 0 raws) db hdb
  refine ⟨?_, ?_, ?_⟩
  · intro answers after h
    obtain ⟨hjoined, hafter⟩ := inOrder_of_oneByOne_ok hdb h
    have hbatch := hok answers (opened after) hjoined
    have hclosed : closed (opened after) = after := closed_of_not_inTransaction hafter
    rw [hclosed] at hbatch
    exact hbatch
  · intro position e h
    exact herror _ (inOrder_of_oneByOne_error hdb h)
  · intro commands h
    have hdecoded := Except.mapM_eq_ok_iff.1 h
    have hsame : inOrder (run .joined) 0 commands = inOrder runJson 0 raws :=
      funext fun db => inOrder_runJson hdecoded 0 db
    unfold batch batchJson
    rw [hsame]

/-- Two commands that succeed, and two of which the second is none. -/
theorem batchJson_eq_oneByOne_pairs :
    let create : Json := .object [("cmd", .string "create"),
      ("kwargs", .array [.string "Shot", .array [.object [("name", .string "B")]]])]
    let delete : Json := .object [("cmd", .string "delete"), ("kwargs", .array [.string "Shot"])]
    let read : Json := .object [("cmd", .string "read"), ("kwargs", .array [.string "Shot"])]
    (batchJson .own [create, delete] sample).1 = .ok [.keys [.int 2], .count 2] ∧
      (batchJson .own [create, read] sample).1
        = .error (.batch 1 (.request (.notInBatch "read"))) ∧
      batch .own [.create ⟨"Shot", [[("name", .string "B")]]⟩, .delete ⟨"Shot", none⟩] sample
        = batchJson .own [create, delete] sample := by
  intro create delete read
  have hcreate : Command.ofJson create = .ok (.create ⟨"Shot", [[("name", .string "B")]]⟩) := by
    with_unfolding_all rfl
  have hdelete : Command.ofJson delete = .ok (.delete ⟨"Shot", none⟩) := by
    with_unfolding_all rfl
  have hread : Command.ofJson read = .error (.request (.notInBatch "read")) := by
    with_unfolding_all rfl
  have hsucceeds : (oneByOne 0 [create, delete] sample).1 = .ok [.keys [.int 2], .count 2] := by
    unfold oneByOne runAlone
    rw [hcreate]
    unfold oneByOne runAlone
    rw [hdelete]
    rfl
  have hfails : (oneByOne 0 [create, read] sample).1
      = .error (1, .request (.notInBatch "read")) := by
    unfold oneByOne runAlone
    rw [hcreate]
    unfold oneByOne runAlone
    rw [hread]
    rfl
  obtain ⟨hok, -, htyped⟩ := batchJson_eq_oneByOne [create, delete] sample rfl
  obtain ⟨-, herror, -⟩ := batchJson_eq_oneByOne [create, read] sample rfl
  refine ⟨?_, herror 1 _ hfails, htyped _ ?_⟩
  · rw [hok _ _ (Prod.ext hsucceeds rfl)]
  · rw [Except.mapM_eq_ok_iff]
    exact .cons hcreate (.cons hdelete .nil)

end Tabula.Database
