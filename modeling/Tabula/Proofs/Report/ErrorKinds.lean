import Tabula.Proofs.Database.Joined
import Tabula.Proofs.Refusal
import Tabula.Report.Session

/-!
# Kinds of errors

Every command has a few kinds of errors that it can fail with, whatever the database holds and
whatever the command says. Main statement: a request fails with an error of one of its kinds or with
a storage error; a batch names the command that failed and carries an error of that command; and the
exit code tells storage errors from those the request is to blame for (`execute_error_kind`).
-/

namespace Tabula

/-! ## Kinds -/

namespace Error

/-- What kind an error is of, whatever its cause. -/
inductive Kind where
  | schema
  | comparison
  | filters
  | join
  | request
  | database
  | batch
  | storage
  | config
  deriving DecidableEq, Repr

/-- The kind of an error. -/
def kind : Error → Kind
  | .schema _ => .schema
  | .comparison _ => .comparison
  | .filters _ => .filters
  | .join _ => .join
  | .request _ => .request
  | .database _ => .database
  | .batch _ _ => .batch
  | .storage _ => .storage
  | .config _ => .config

/-- The error that a batch error carries; every other error is what went wrong itself. -/
def source : Error → Error
  | .batch _ source => source
  | e => e

/-- Whether an error is a storage error or of one of the given kinds. -/
def IsAmong (kinds : List Kind) (e : Error) : Prop := e.kind = .storage ∨ e.kind ∈ kinds

/-- Whether an error can be the source of a batch error: none of a batch, a comparand or the
configuration can. -/
def IsPlain (e : Error) : Prop := e.kind ∉ [.batch, .comparison, .config]

/-- Errors of storage are among the kinds of every request. -/
theorem isAmong_storage (kinds : List Kind) (cause : StorageError) :
    IsAmong kinds (.storage cause) := .inl rfl

variable {e : Error} {kinds : List Kind}

/-- An error of plain kinds is plain. -/
theorem IsAmong.isPlain (h : e.IsAmong kinds)
    (hkinds : ∀ kind ∈ kinds, kind ∉ [.batch, .comparison, .config]) : e.IsPlain := by
  rcases h with hstorage | hkind
  · simp [IsPlain, hstorage]
  · exact hkinds _ hkind

/-- The source of an error decides whether the request is to blame for it. -/
theorem isClientError_eq (h : e.source.IsPlain) :
    e.isClientError = decide (e.source.kind ≠ .storage) := by
  have hplain {e : Error} (h : e.IsPlain) : e.isClientError = decide (e.kind ≠ .storage) := by
    cases e <;> simp_all [IsPlain, isClientError, kind]
  cases e with
  | batch index source => exact hplain (e := source) h
  | _ => exact hplain h

end Error

open Error (Kind)

/-- The kinds of the errors of a command, but for storage errors. -/
def Command.kinds : Command → List Kind
  | .create _ => [.schema, .database]
  | .update _ => [.schema, .request, .filters, .database]
  | .delete _ => [.schema, .filters]

/-- Whether what should be a command of a batch can fail with an error: an invalid request if it is no
command, and otherwise an error of the command. -/
def Json.CanFailWith (raw : Json) (e : Error) : Prop :=
  match Command.ofJson raw with
  | .ok command => e.IsAmong command.kinds
  | .error _ => e.kind = .request

/-- Whether a request can fail with an error. A batch fails with the position of one of its commands and
an error that this command can fail with. -/
def Request.CanFailWith : Request → Error → Prop
  | .create r, e => e.IsAmong (Command.create r).kinds
  | .read _, e => e.IsAmong [.schema, .filters, .join, .request]
  | .update r, e => e.IsAmong (Command.update r).kinds
  | .delete r, e => e.IsAmong (Command.delete r).kinds
  | .batch raws, e =>
      ∃ (index : Fin raws.length) (source : Error), e = .batch index source ∧
        raws[index].CanFailWith source

/-- The errors of a command that is given as JSON are plain. -/
theorem Json.CanFailWith.isPlain {raw : Json} {e : Error} (h : raw.CanFailWith e) : e.IsPlain := by
  unfold CanFailWith at h
  split at h
  · next command _ => exact h.isPlain (by cases command <;> simp [Command.kinds])
  · simp [Error.IsPlain, h]

/-- So are the causes of the errors of a request. -/
theorem Request.CanFailWith.isPlain_source {request : Request} {e : Error}
    (h : request.CanFailWith e) : e.source.IsPlain := by
  -- Only the error of a batch carries another one.
  have hleaf {kinds : List Kind} (h : e.IsAmong kinds)
      (hkinds : ∀ kind ∈ kinds, kind ∉ [.batch, .comparison, .config]) : e.source.IsPlain := by
    have hplain := h.isPlain hkinds
    cases e with
    | batch index source => simp [Error.IsPlain, Error.kind] at hplain
    | _ => exact hplain
  cases request with
  | create r => exact hleaf h (by simp [Command.kinds])
  | read r => exact hleaf h (by simp)
  | update r => exact hleaf h (by simp [Command.kinds])
  | delete r => exact hleaf h (by simp [Command.kinds])
  | batch raws =>
      obtain ⟨index, source, rfl, hsource⟩ := h
      exact hsource.isPlain

namespace Database

variable {scoping : Scoping} {db : Database}

/-! ## What fails, and how -/

/-- A create request fails with its own kinds of errors. -/
theorem failsWith_create_isAmong (r : CreateRequest)
    (hdb : scoping = .own → db.inTransaction = false) :
    (create scoping r db).1.FailsWith (Error.IsAmong (Command.create r).kinds) :=
  failsWith_create (fun _ => .inr (by simp [Error.kind, Command.kinds]))
    (fun _ => .inr (by simp [Error.kind, Command.kinds])) (Error.isAmong_storage _) r hdb

/-- So does an update request. -/
theorem failsWith_update_isAmong (r : UpdateRequest)
    (hdb : scoping = .own → db.inTransaction = false) :
    (update scoping r db).1.FailsWith (Error.IsAmong (Command.update r).kinds) :=
  failsWith_updateRequest (fun _ => .inr (by simp [Error.kind, Command.kinds]))
    (fun _ => .inr (by simp [Error.kind, Command.kinds])) (Error.isAmong_storage _)
    (fun _ => .inr (by simp [Error.kind, Command.kinds]))
    (fun _ => .inr (by simp [Error.kind, Command.kinds])) r hdb

/-- So does a delete request. -/
theorem failsWith_delete_isAmong (r : DeleteRequest)
    (hdb : scoping = .own → db.inTransaction = false) :
    (delete scoping r db).1.FailsWith (Error.IsAmong (Command.delete r).kinds) :=
  failsWith_deleteRequest (fun _ => .inr (by simp [Error.kind, Command.kinds]))
    (fun _ => .inr (by simp [Error.kind, Command.kinds])) (Error.isAmong_storage _) r hdb

/-- So does every command. -/
theorem failsWith_run_isAmong (command : Command)
    (hdb : scoping = .own → db.inTransaction = false) :
    (run scoping command db).1.FailsWith (Error.IsAmong command.kinds) := by
  cases command with
  | create r => exact failsWith_mapResult _ (failsWith_create_isAmong r hdb)
  | update r => exact failsWith_mapResult _ (failsWith_update_isAmong r hdb)
  | delete r => exact failsWith_mapResult _ (failsWith_delete_isAmong r hdb)

/-- What does not decode is an invalid request; what does fails as a command. -/
theorem failsWith_runJson_canFailWith (raw : Json) (db : Database) :
    (runJson raw db).1.FailsWith raw.CanFailWith := by
  unfold runJson Json.CanFailWith
  cases hcommand : Command.ofJson raw with
  | ok command => exact failsWith_run_isAmong command nofun
  | error e =>
      have hkind : e.kind = .request :=
        failsWith_command (P := fun e => e.kind = .request) (fun _ _ => rfl) raw e hcommand
      exact Except.failsWith_error_iff.2 hkind

/-- A batch fails with an error of one of its commands. -/
theorem canFailWith_of_batchJson {raws : List Json} {e : Error} (hdb : db.inTransaction = false)
    (h : (batchJson .own raws db).1 = .error e) : (Request.batch raws).CanFailWith e := by
  have hbody : ∀ db : Database,
      (inOrder runJson 0 raws db).1.FailsWith (Request.batch raws).CanFailWith := by
    intro db e he
    obtain ⟨i, raw, answers, between, source, hi, -, hfails, rfl⟩ := inOrder_eq_error he
    obtain ⟨hlt, rfl⟩ := List.getElem?_eq_some_iff.1 hi
    refine ⟨⟨i, hlt⟩, source, by rw [Nat.zero_add], ?_⟩
    exact failsWith_runJson_canFailWith _ between source (congrArg Prod.fst hfails)
  exact failsWith_within hbody (fun _ => hdb) e h

/-- **Every error is of a kind that its request allows.** A request that is run at top level fails with
a storage error or with one of the kinds that belong to it. A batch fails at the position of one of
its commands, with an error that this command can fail with and that is no batch error. Errors of
comparands and of the configuration are never seen. The exit code is one if a storage error is behind
the failure and two, for the client, if not. -/
theorem execute_error_kind {request : Request} {e : Error} (hdb : db.inTransaction = false)
    (h : (execute .own request db).1 = .error e) :
    request.CanFailWith e ∧ e.source.kind ∉ [.batch, .comparison, .config] ∧
      e.isClientError = decide (e.source.kind ≠ .storage) ∧
      (SessionError.operation e).exitCode = if e.source.kind = .storage then 1 else 2 := by
  have hfails : (execute .own request db).1.FailsWith request.CanFailWith := by
    cases request with
    | create r => exact failsWith_mapResult _ (failsWith_create_isAmong r fun _ => hdb)
    | read r =>
        have hread : (read .own r db).1.FailsWith
            (Error.IsAmong [.schema, .filters, .join, .request]) :=
          failsWith_read (fun _ => .inr (by simp [Error.kind])) (fun _ => .inr (by simp [Error.kind]))
            (Error.isAmong_storage _) (fun _ => .inr (by simp [Error.kind]))
            (fun _ => .inr (by simp [Error.kind])) r fun _ => hdb
        exact failsWith_mapResult _ hread
    | update r => exact failsWith_mapResult _ (failsWith_update_isAmong r fun _ => hdb)
    | delete r => exact failsWith_mapResult _ (failsWith_delete_isAmong r fun _ => hdb)
    | batch raws => exact failsWith_mapResult _ fun e he => canFailWith_of_batchJson hdb he
  have hallowed := hfails e h
  have hplain := hallowed.isPlain_source
  have hclient := Error.isClientError_eq hplain
  refine ⟨hallowed, hplain, hclient, ?_⟩
  by_cases hstorage : e.source.kind = .storage <;> simp [SessionError.exitCode, hclient, hstorage]

/-- The second command of a batch names no table, and in another batch the first one is no command; a
table that the store does not have is a matter of the store. -/
theorem execute_error_kind_sample :
    let delete (table : String) : Json :=
      .object [("cmd", .string "delete"), ("kwargs", .array [.string table])]
    let astray : Request := .batch [delete "Shot", delete "Nowhere"]
    let stray : Error := .batch 1 (.schema (.unknownTable "Nowhere"))
    let missing : Error := .batch 0 (.storage (.unknownTable "Shot"))
    let bare : Database := { sample with store := Store.empty 0 }
    sample.inTransaction = false ∧ (execute .own astray sample).1 = .error stray ∧
      astray.CanFailWith stray ∧ (SessionError.operation stray).exitCode = 2 ∧
      (execute .own (.batch [delete "Shot"]) bare).1 = .error missing ∧
      (SessionError.operation missing).exitCode = 1 := by
  intro delete astray stray missing bare
  have hclosed : sample.inTransaction = false := rfl
  have hastray : (execute .own astray sample).1 = .error stray := by with_unfolding_all rfl
  have hmissing : (execute .own (.batch [delete "Shot"]) bare).1 = .error missing := by
    with_unfolding_all rfl
  obtain ⟨hallowed, -, -, hclient⟩ := execute_error_kind hclosed hastray
  have hbare : bare.inTransaction = false := rfl
  obtain ⟨-, -, -, hstore⟩ := execute_error_kind hbare hmissing
  exact ⟨hclosed, hastray, hallowed, hclient, hmissing, hstore⟩

end Database

end Tabula
