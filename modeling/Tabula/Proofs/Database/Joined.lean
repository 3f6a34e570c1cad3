import Tabula.Proofs.Database.Sequence

/-!
# Failures in an open transaction

An operation that joins an open transaction has no transaction of its own that could be undone. Main
statement: commands that fail there leave what the commands before the failing one have done, and, if
that one adds rows, its rows before the one that was refused (`keeps_of_joined_error`). A transaction
that passes over the failure makes them last (`store_transaction_passOver`).
-/

namespace Tabula

open Store (Relation)

/-- The store with rows added by statements, one after the other. -/
def Store.insertAll (s : Store) (statements : List Sql.Insert) : Except Error Store :=
  statements.foldlM Store.insert s

namespace Database

variable {α β γ : Type}

/-! ## Up to the first failure -/

/-- Operations in order that fail have done those before the one that failed, and leave what that one
leaves. -/
theorem inOrder_eq_error {step : γ → Operation β} {items : List γ} {index : Nat} {db : Database}
    {e : Error} (h : (inOrder step index items db).1 = .error e) :
    ∃ i item answers between cause, items[i]? = some item ∧
      inOrder step index (items.take i) db = (.ok answers, between) ∧
      step item between = (.error cause, (inOrder step index items db).2) ∧
      e = .batch (index + i) cause := by
  -- By induction on the items: either the first one fails, at position 0, or one of the rest does.
  induction items generalizing index db with
  | nil => cases h
  | cons item items ih =>
      unfold inOrder at h ⊢
      cases hitem : step item db with
      | mk result next =>
          rw [hitem] at h
          cases result with
          | error cause =>
              obtain rfl := Except.error.inj h
              exact ⟨0, item, [], db, cause, rfl, rfl, hitem, rfl⟩
          | ok answer =>
              dsimp only at h ⊢
              have hrest : (inOrder step (index + 1) items next).1 = .error e := by
                split at h
                · cases h
                · next heq =>
                    rw [heq]
                    exact h
              obtain ⟨i, failing, answers, between, cause, hi, hdone, hfails, rfl⟩ := ih hrest
              refine ⟨i + 1, failing, answer :: answers, between, cause, hi, ?_, ?_, ?_⟩
              · simp only [List.take_succ_cons, hitem, hdone]
              · rw [hfails]
                split
                · next heq => simp [heq] at hrest
                · next heq => rw [heq]
              · rw [Nat.add_assoc, Nat.add_comm 1]

/-- Rows that cannot all be added: those before the one that was refused are there. -/
theorem addRows_eq_error {rows : List PlannedRow} {db : Database} {e : Error}
    (h : (addRows rows db).1 = .error e) :
    ∃ n < rows.length, db.store.insertAll ((rows.map PlannedRow.statement).take n)
      = .ok (addRows rows db).2.store := by
  -- By induction on the rows: those before the one that fails stay added.
  induction rows generalizing db with
  | nil => cases h
  | cons row rows ih =>
      unfold addRows at h ⊢
      unfold addRow at h ⊢
      cases hinsert : db.store.insert row.statement with
      | error cause => exact ⟨0, Nat.succ_pos _, rfl⟩
      | ok store =>
          rw [hinsert] at h
          dsimp only at h ⊢
          have hrest : (addRows rows { db with store }).1 = .error e := by
            split at h
            · cases h
            · next heq =>
                rw [heq]
                exact h
          obtain ⟨n, hn, hadded⟩ := ih hrest
          refine ⟨n + 1, Nat.succ_lt_succ hn, ?_⟩
          rw [List.map_cons, List.take_succ_cons]
          show (row.statement :: _).foldlM Store.insert db.store = _
          rw [List.foldlM_cons, hinsert]
          show Store.insertAll store _ = _
          rw [hadded]
          split
          · next heq => rw [heq]
          · next heq => rw [heq]

/-! ## What a failing command leaves -/

/-- The statements that add the rows of a request; there are none if it is refused before. -/
def insertsOf (db : Database) (r : CreateRequest) : List Sql.Insert :=
  match db.catalog.table r.table with
  | .error _ => []
  | .ok t =>
    match (planRows t ⟨suppliedKeys t r.rows, db.keys⟩ r.rows).1 with
    | .error _ => []
    | .ok planned => planned.map PlannedRow.statement

/-- The statements that add the rows of a command; only one that creates rows has any. -/
def insertsOfCommand (db : Database) : Command → List Sql.Insert
  | .create r => db.insertsOf r
  | .update _ | .delete _ => []

/-- The statements that add the rows of a command that is yet to be decoded. -/
def insertsOfJson (db : Database) (raw : Json) : List Sql.Insert :=
  match Command.ofJson raw with
  | .ok command => db.insertsOfCommand command
  | .error _ => []

/-- Whether a database has the contents of another with the first rows of some added, but not the
last of them. -/
def Keeps (before : Database) (statements : List Sql.Insert) (after : Database) : Prop :=
  ∃ n kept, n ≤ statements.length - 1 ∧
    before.store.insertAll (statements.take n) = .ok kept ∧
    after.store.relations = kept.relations

/-- Where there is at most one row to add, no row is kept. -/
theorem Keeps.relations_eq {before after : Database} {statements : List Sql.Insert}
    (h : Keeps before statements after) (hone : statements.length ≤ 1) :
    after.store.relations = before.store.relations := by
  obtain ⟨n, kept, hn, hadded, hafter⟩ := h
  obtain rfl : n = 0 := by omega
  rw [hafter, ← Except.ok.inj hadded]

theorem Keeps.of_eq {before after : Database} (statements : List Sql.Insert)
    (h : after.store.relations = before.store.relations) : Keeps before statements after :=
  ⟨0, before.store, Nat.zero_le _, rfl, h⟩

theorem keeps_create {r : CreateRequest} {db : Database} {e : Error}
    (h : (create .joined r db).1 = .error e) :
    Keeps db (db.insertsOf r) (create .joined r db).2 := by
  unfold create at h ⊢
  unfold insertsOf
  cases ht : db.catalog.table r.table with
  | error cause => exact .of_eq _ rfl
  | ok t =>
      rw [ht] at h
      dsimp only at h ⊢
      cases hplanned : (planRows t ⟨suppliedKeys t r.rows, db.keys⟩ r.rows).1 with
      | error cause => exact .of_eq _ rfl
      | ok planned =>
          rw [hplanned] at h
          obtain ⟨n, hn, hadded⟩ := addRows_eq_error h
          refine ⟨n, _, ?_, hadded, rfl⟩
          rw [List.length_map]
          omega

theorem keeps_change {run : Store → Except Error (Store × Nat)} {db : Database} {e : Error}
    (statements : List Sql.Insert) (h : (change run db).1 = .error e) :
    Keeps db statements (change run db).2 := by
  apply Keeps.of_eq
  unfold change at h ⊢
  split
  · next heq => simp [heq] at h
  · rfl

theorem keeps_mapResult {operation : Operation α} (f : α → β) {statements : List Sql.Insert}
    {db : Database} (hkeeps : ∀ e, (operation db).1 = .error e → Keeps db statements (operation db).2)
    {e : Error} (h : (mapResult f operation db).1 = .error e) :
    Keeps db statements (mapResult f operation db).2 := by
  unfold mapResult at h ⊢
  split
  · next heq => simp [heq] at h
  · next cause after heq => simpa [heq] using hkeeps cause

/-- A command that fails in an open transaction leaves rows of its own at most. -/
theorem keeps_run {command : Command} {db : Database} {e : Error}
    (h : (run .joined command db).1 = .error e) :
    Keeps db (db.insertsOfCommand command) (run .joined command db).2 := by
  cases command with
  | create r =>
      show Keeps db (db.insertsOf r) (mapResult _ (create .joined r) db).2
      exact keeps_mapResult _ (fun e => keeps_create) h
  | update r =>
      refine keeps_mapResult _ (fun e he => ?_) h
      unfold update at he ⊢
      cases hplan : Plan.update db.catalog r with
      | error cause => exact .of_eq _ rfl
      | ok statement =>
          rw [hplan] at he
          dsimp only [within] at he ⊢
          exact keeps_change _ he
  | delete r =>
      refine keeps_mapResult _ (fun e he => ?_) h
      unfold delete at he ⊢
      cases hplan : Plan.delete db.catalog r with
      | error cause => exact .of_eq _ rfl
      | ok statement =>
          rw [hplan] at he
          dsimp only [within] at he ⊢
          exact keeps_change _ he

theorem keeps_runJson {raw : Json} {db : Database} {e : Error}
    (h : (runJson raw db).1 = .error e) :
    Keeps db (db.insertsOfJson raw) (runJson raw db).2 := by
  unfold runJson at h ⊢
  unfold insertsOfJson
  cases hraw : Command.ofJson raw with
  | error cause => exact .of_eq _ rfl
  | ok command =>
      rw [hraw] at h
      exact keeps_run h

/-! ## What failing commands leave -/

/-- An operation whose failure is passed over. -/
def passOver (operation : Operation α) : Operation (Except Error α) := fun db =>
  (.ok (operation db).1, (operation db).2)

/-- A transaction that passes over a failure makes what it left last. -/
theorem store_transaction_passOver (operation : Operation α) {db : Database}
    (h : db.inTransaction = false) :
    transaction (passOver operation) db
      = (.ok (operation (opened db)).1, closed (operation (opened db)).2) := by
  unfold transaction
  rw [if_neg (by simp [h])]
  rfl

/-- **A failure in an open transaction is not undone.** Commands that fail there leave exactly what
the commands before the failing one have done and, if that one adds rows, its rows before the one
that was refused. So a command that adds at most one row leaves nothing when it fails. Where the
failure is passed over, what is left becomes part of the store with the rest of the transaction. -/
theorem keeps_of_joined_error (db : Database) :
    (∀ r e, (create .joined r db).1 = .error e →
      Keeps db (db.insertsOf r) (create .joined r db).2) ∧
    (∀ commands e, (batch .joined commands db).1 = .error e →
      ∃ i command answers between cause, commands[i]? = some command ∧ e = .batch i cause ∧
        batch .joined (commands.take i) db = (.ok answers, between) ∧
        Keeps between (between.insertsOfCommand command) (batch .joined commands db).2) ∧
    (∀ raws e, (batchJson .joined raws db).1 = .error e →
      ∃ i raw answers between cause, raws[i]? = some raw ∧ e = .batch i cause ∧
        batchJson .joined (raws.take i) db = (.ok answers, between) ∧
        Keeps between (between.insertsOfJson raw) (batchJson .joined raws db).2) ∧
    (∀ command e, (run .joined command db).1 = .error e →
      (db.insertsOfCommand command).length ≤ 1 → SameContents db (run .joined command db).2) ∧
    (∀ operation : Operation α, db.inTransaction = false →
      transaction (passOver operation) db
        = (.ok (operation (opened db)).1, closed (operation (opened db)).2)) := by
  refine ⟨fun r e => keeps_create, ?_, ?_, ?_, fun operation => store_transaction_passOver operation⟩
  · intro commands e h
    obtain ⟨i, command, answers, between, cause, hi, hdone, hfails, rfl⟩ := inOrder_eq_error h
    refine ⟨i, command, answers, between, cause, hi, by rw [Nat.zero_add], hdone, ?_⟩
    have hkeeps := keeps_run (by rw [hfails])
    rwa [hfails] at hkeeps
  · intro raws e h
    obtain ⟨i, raw, answers, between, cause, hi, hdone, hfails, rfl⟩ := inOrder_eq_error h
    refine ⟨i, raw, answers, between, cause, hi, by rw [Nat.zero_add], hdone, ?_⟩
    have hkeeps := keeps_runJson (by rw [hfails])
    rwa [hfails] at hkeeps
  · intro command e h hone
    exact ⟨isFramed_run .joined command db, (keeps_run h).relations_eq hone⟩

/-- Commands of which the second names no table. -/
def halfway : List Command :=
  [.create ⟨"Shot", [[("name", .string "B")]]⟩, .delete ⟨"Nowhere", none⟩]

/-- The first command is done, and its row is all that the failure leaves. -/
theorem keeps_of_joined_error_halfway :
    (batch .joined halfway (opened sample)).1
      = .error (.batch 1 (.schema (.unknownTable "Nowhere"))) ∧
    ∃ i command answers between cause, halfway[i]? = some command ∧
      .batch 1 (.schema (.unknownTable "Nowhere")) = Error.batch i cause ∧
      batch .joined (halfway.take i) (opened sample) = (.ok answers, between) ∧
      Keeps between (between.insertsOfCommand command)
        (batch .joined halfway (opened sample)).2 := by
  have h : (batch .joined halfway (opened sample)).1
      = .error (.batch 1 (.schema (.unknownTable "Nowhere"))) := by rfl
  obtain ⟨-, hbatch, -⟩ := keeps_of_joined_error (α := Unit) (opened sample)
  exact ⟨h, hbatch halfway _ h⟩

/-- A batch and a request to create rows that fail in an open transaction, and leave a row that the
transaction goes on with and that is still there after it. -/
theorem not_sameContents_of_joined_error :
    let twice : CreateRequest :=
      ⟨"Shot", [[("id", .int 7), ("name", .string "B")], [("id", .int 7), ("name", .string "C")]]⟩
    let rows (db : Database) := (db.store.relation? "Shot").map Relation.rows
    rows (opened sample) = some [⟨1, [.int 1, .text "A"]⟩] ∧
    (batch .joined halfway (opened sample)).1
      = .error (.batch 1 (.schema (.unknownTable "Nowhere"))) ∧
    rows (batch .joined halfway (opened sample)).2
      = some [⟨1, [.int 1, .text "A"]⟩, ⟨2, [.int 2, .text "B"]⟩] ∧
    ¬ SameContents (opened sample) (batch .joined halfway (opened sample)).2 ∧
    rows (transaction (passOver (batch .joined halfway)) sample).2
      = some [⟨1, [.int 1, .text "A"]⟩, ⟨2, [.int 2, .text "B"]⟩] ∧
    (create .joined twice (opened sample)).1 = .error (.database (.notUnique [("Shot", "id")])) ∧
    rows (transaction (passOver (create .joined twice)) sample).2
      = some [⟨1, [.int 1, .text "A"]⟩, ⟨7, [.int 7, .text "B"]⟩] := by
  refine ⟨rfl, rfl, rfl, fun h => ?_, rfl, rfl, rfl⟩
  have hcounts := congrArg (List.map fun rel => rel.rows.length) h.2
  exact absurd hcounts (by decide +kernel)

end Database

end Tabula
