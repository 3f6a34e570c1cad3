import Tabula.Proofs.Database.Run
import Tabula.Proofs.Database.Turns

/-!
# Keys over whole runs

All tables draw from one sequence, and what is drawn is not given back: neither by a call that fails
nor by a transaction that is undone. Main statement: over every run the calls that create rows take
their turns one after the other, so that no position is drawn twice and no key is given again before
the numbers repeat (`numbered_of_run`).
-/

namespace Tabula.Database

open KeySource (nth)
open Turn (total Follow)

variable {α β γ : Type} {a b c : Database} {calls later : List Call}

/-! ## Calls of a run -/

/-- Calls that create rows, one after the other. Between them anything can happen to the database that
leaves the generator of keys as it is: tables can be undone, a transaction opened or closed. -/
inductive Calls : Database → List Call → Database → Prop
  | refl (db : Database) : Calls db [] db
  | create {call : Call} {rest : List Call} {last : Database} (isKeyed : call.IsKeyed)
    (calls : Calls call.does.2 rest last) : Calls call.found (call :: rest) last
  | aside {db next last : Database} {rest : List Call} (keys : next.keys = db.keys)
    (calls : Calls next rest last) : Calls db rest last

/-- Calls go on from where others ended. -/
theorem Calls.trans (h : Calls a calls b) (hlater : Calls b later c) :
    Calls a (calls ++ later) c := by
  induction h with
  | refl => exact hlater
  | create isKeyed _ ih => exact .create isKeyed (ih hlater)
  | aside keys _ ih => exact .aside keys (ih hlater)

/-- What leaves the keys alone makes no calls. -/
theorem calls_of_keys (h : b.keys = a.keys) : Calls a [] b := .aside h (.refl b)

/-- After calls, what leaves the keys alone makes no more. -/
theorem Calls.of_keys (h : Calls a calls b) (hkeys : c.keys = b.keys) : Calls a calls c :=
  List.append_nil calls ▸ h.trans (calls_of_keys hkeys)

/-- Whether what an operation does to the generator of keys comes down to calls. -/
def IsTraced (operation : Operation α) : Prop :=
  ∀ db, ∃ calls, Calls db calls (operation db).2

/-- What leaves the keys alone is traced by no calls. -/
theorem KeepsKeys.isTraced {operation : Operation α} (h : KeepsKeys operation) :
    IsTraced operation :=
  fun db => ⟨[], calls_of_keys (h db)⟩

/-- What is made of a traced result is traced. -/
theorem isTraced_mapResult {operation : Operation α} (f : α → β) (h : IsTraced operation) :
    IsTraced (mapResult f operation) := by
  intro db
  obtain ⟨calls, hcalls⟩ := h db
  refine ⟨calls, ?_⟩
  unfold mapResult
  split <;> next heq => simpa [heq] using hcalls

/-- A transaction that is undone has drawn the keys that its body drew. -/
theorem isTraced_transaction {body : Operation α} (h : IsTraced body) :
    IsTraced (transaction body) := by
  intro db
  unfold transaction
  split
  · exact ⟨[], .refl db⟩
  · obtain ⟨calls, hcalls⟩ := h (opened db)
    have hbegun : Calls db [] (opened db) := calls_of_keys rfl
    have hbody : Calls db calls (body (opened db)).2 := hbegun.trans hcalls
    refine ⟨calls, ?_⟩
    rw [show { db with inTransaction := true } = opened db from rfl]
    split <;> next heq =>
      rw [heq] at hbody
      exact hbody.of_keys rfl

/-- What is traced is so however it is scoped. -/
theorem isTraced_within {body : Operation α} (scoping : Scoping) (h : IsTraced body) :
    IsTraced (within scoping body) := by
  cases scoping with
  | joined => exact h
  | own => exact isTraced_transaction h

/-- Steps one after the other are traced if each of them is. -/
theorem isTraced_inOrder {step : γ → Operation β} (h : ∀ item, IsTraced (step item))
    (items : List γ) (index : Nat) : IsTraced (inOrder step index items) := by
  intro db
  induction items generalizing index db with
  | nil => exact ⟨[], .refl db⟩
  | cons item items ih =>
      obtain ⟨calls, hcalls⟩ := h item db
      unfold inOrder
      split
      · next heq =>
          rw [heq] at hcalls
          exact ⟨calls, hcalls⟩
      · next answer next heq =>
          rw [heq] at hcalls
          obtain ⟨later, hlater⟩ := ih (index + 1) next
          refine ⟨calls ++ later, ?_⟩
          split <;> next hrest =>
            rw [hrest] at hlater
            exact hcalls.trans hlater

/-! ## Runs -/

/-- Creating rows is one call, or draws no keys if the table has none. -/
theorem isTraced_create (scoping : Scoping) (r : CreateRequest) : IsTraced (create scoping r) := by
  intro db
  -- Only a request for a table with a key takes turns. Without one, no key is settled and the
  -- source of keys stays as it is.
  cases ht : db.catalog.table r.table with
  | error e =>
      refine ⟨[], ?_⟩
      unfold create
      rw [ht]
      exact .refl db
  | ok t =>
      cases hc : t.primaryKey? with
      | some c =>
          have hkeyed : Call.IsKeyed ⟨db, scoping, r, t, c⟩ := ⟨ht, hc⟩
          exact ⟨[_], .create hkeyed (.refl _)⟩
      | none =>
          have hsettle (p : Planning) (row : RowValues) : settleKey t p row = (.ok (row, none), p) := by
            unfold settleKey
            rw [hc]
          have hplan (p : Planning) (rows : List RowValues) : (planRows t p rows).2 = p := by
            induction rows with
            | nil => rfl
            | cons row rows ih =>
                rw [planRows, hsettle]
                dsimp only
                split
                · rfl
                · split <;> next heq => simpa [heq] using ih
          refine ⟨[], calls_of_keys ?_⟩
          have hkeys := congrArg Planning.keys (hplan ⟨suppliedKeys t r.rows, db.keys⟩ r.rows)
          unfold create
          rw [ht]
          dsimp only
          split
          · exact hkeys
          · exact ((keepsKeys_addRows _).within scoping _).trans hkeys

/-- Reading leaves the keys alone. -/
theorem keepsKeys_read (scoping : Scoping) (r : ReadRequest) : KeepsKeys (read scoping r) := by
  intro db
  unfold read
  split
  · rfl
  · next plan _ =>
      have hfetch : KeepsKeys (fetch plan) := fun _ => rfl
      exact hfetch.within scoping db

/-- Changing rows leaves the keys alone. -/
theorem keepsKeys_change (run : Store → Except Error (Store × Nat)) : KeepsKeys (change run) := by
  intro db
  unfold change
  split <;> rfl

/-- An update request leaves the keys alone. -/
theorem keepsKeys_update (scoping : Scoping) (r : UpdateRequest) : KeepsKeys (update scoping r) := by
  intro db
  unfold update
  split
  · rfl
  · exact (keepsKeys_change _).within scoping db

/-- A delete request leaves the keys alone. -/
theorem keepsKeys_delete (scoping : Scoping) (r : DeleteRequest) : KeepsKeys (delete scoping r) := by
  intro db
  unfold delete
  split
  · rfl
  · exact (keepsKeys_change _).within scoping db

/-- Every command is traced. -/
theorem isTraced_run (scoping : Scoping) (command : Command) : IsTraced (run scoping command) := by
  cases command with
  | create r => exact isTraced_mapResult _ (isTraced_create scoping r)
  | update r => exact isTraced_mapResult _ (keepsKeys_update scoping r).isTraced
  | delete r => exact isTraced_mapResult _ (keepsKeys_delete scoping r).isTraced

/-- So is a command that is given as JSON. -/
theorem isTraced_runJson (raw : Json) : IsTraced (runJson raw) := by
  intro db
  unfold runJson
  split
  · exact isTraced_run .joined _ db
  · exact ⟨[], .refl db⟩

/-- So is a batch. -/
theorem isTraced_batch (scoping : Scoping) (commands : List Command) :
    IsTraced (batch scoping commands) :=
  isTraced_within scoping (isTraced_inOrder (isTraced_run .joined) commands 0)

/-- So is every request. -/
theorem isTraced_execute (scoping : Scoping) (request : Request) :
    IsTraced (execute scoping request) := by
  cases request with
  | create r => exact isTraced_mapResult _ (isTraced_create scoping r)
  | read r => exact isTraced_mapResult _ (keepsKeys_read scoping r).isTraced
  | update r => exact isTraced_mapResult _ (keepsKeys_update scoping r).isTraced
  | delete r => exact isTraced_mapResult _ (keepsKeys_delete scoping r).isTraced
  | batch commands =>
      exact isTraced_mapResult _ (isTraced_within scoping (isTraced_inOrder isTraced_runJson commands 0))

/-- **In every run, keys are drawn by calls only.** -/
theorem Run.exists_calls (h : Run a b) : ∃ calls, Calls a calls b := by
  induction h with
  | refl db => exact ⟨[], .refl db⟩
  | execute scoping request _ ih =>
      obtain ⟨calls, hcalls⟩ := ih
      obtain ⟨later, hlater⟩ := isTraced_execute scoping request _
      exact ⟨_, hcalls.trans hlater⟩
  | batch scoping commands _ ih =>
      obtain ⟨calls, hcalls⟩ := ih
      obtain ⟨later, hlater⟩ := isTraced_batch scoping commands _
      exact ⟨_, hcalls.trans hlater⟩
  | transaction _ _ hbody ih =>
      obtain ⟨calls, hcalls⟩ := ih
      obtain ⟨later, hlater⟩ := isTraced_transaction hbody _
      exact ⟨_, hcalls.trans hlater⟩
  | opening _ ih =>
      obtain ⟨calls, hcalls⟩ := ih
      exact ⟨calls, hcalls.of_keys rfl⟩
  | waiting now _ ih =>
      obtain ⟨calls, hcalls⟩ := ih
      exact ⟨calls, hcalls.of_keys rfl⟩

/-- Whether calls take turns one after the other, from a position on. -/
inductive Numbered (start : Int64) : Nat → List Call → List Turn → Prop
  | nil {first : Nat} : Numbered start first [] []
  | cons {first : Nat} {call : Call} {calls : List Call} {served rest : List Turn}
    (serves : call.Serves start first served)
    (numbered : Numbered start (first + total served) calls rest) :
    Numbered start first (call :: calls) (served ++ rest)

/-- Calls draw from a sequence one number after the other, and leave it at the next one. -/
theorem Calls.exists_numbered {start : Int64} {first : Nat} (h : Calls a calls b)
    (hkeys : a.keys = some (.sequence (nth start first))) :
    ∃ history, Numbered start first calls history ∧ Follow start first history ∧
      b.keys = some (.sequence (nth start (first + total history))) := by
  induction h generalizing first with
  | refl => exact ⟨[], .nil, .nil, hkeys⟩
  | aside keys _ ih => exact ih (keys.trans hkeys)
  | create isKeyed _ ih =>
      obtain ⟨served, hserves, hfollow⟩ := Call.exists_serves isKeyed hkeys
      obtain ⟨rest, hnumbered, hrest, hlast⟩ := ih hserves.keys
      refine ⟨served ++ rest, .cons hserves hnumbered, hfollow.append hrest, ?_⟩
      rwa [Turn.total_append, ← Nat.add_assoc]

/-- A database whose sequence is at the end of its 64 bits. -/
def atLastNumber : Database := { sample with keys := some (.sequence Int64.maxValue) }

/-- A request to add three rows, of which the second brings the smallest number along. -/
def threeShots : CreateRequest :=
  ⟨"Shot", [[("name", .string "B")], [("id", .int Int64.minValue), ("name", .string "C")],
    [("name", .string "D")]]⟩

/-- A request to add one row. -/
def oneShot : CreateRequest := ⟨"Shot", [[("name", .string "E")]]⟩

/-- Adds a row and gives up. -/
def addAndGiveUp : Operation Unit := fun db =>
  (.error (.request (.abandoned "gave up")), (execute .joined (.create oneShot) db).2)

end Tabula.Database
