import Tabula.Database.Operations
import Tabula.Request.Document

/-!
# Batches and whole requests

A batch runs its commands in order in one transaction and reports the position of the command that
failed. The commands of a batch request are decoded one by one, each after the ones before it have
run.
-/

namespace Tabula

/-- The answer to a command. -/
inductive CommandAnswer where
  | keys (keys : List Value)
  | count (n : Nat)
  deriving Repr

/-- The answer to a request. -/
inductive Answer where
  | keys (keys : List Value)
  | rows (rows : List ResultRow)
  | count (n : Nat)
  | batch (answers : List CommandAnswer)
  deriving Repr

namespace Database

variable {α β γ Keys : Type}

/-- An operation with its result changed. -/
def mapResult (f : α → β) (operation : Operation α Keys) : Operation β Keys := fun db =>
  match operation db with
  | (.ok a, db) => (.ok (f a), db)
  | (.error e, db) => (.error e, db)

/-- Runs a command. -/
def run [KeyGenerator Keys] (scoping : Scoping) : Command → Operation CommandAnswer Keys
  | .create r => mapResult .keys (create scoping r)
  | .update r => mapResult .count (update scoping r)
  | .delete r => mapResult .count (delete scoping r)

/-- Runs one operation after the other from a position on; a failure carries the position. -/
def inOrder (step : γ → Operation β Keys) (index : Nat) : List γ → Operation (List β) Keys
  | [], db => (.ok [], db)
  | item :: items, db =>
    match step item db with
    | (.error e, db) => (.error (.batch index e), db)
    | (.ok b, db) =>
      match inOrder step (index + 1) items db with
      | (.ok bs, db) => (.ok (b :: bs), db)
      | (.error e, db) => (.error e, db)

/-- Decodes a command and runs it in the open transaction. -/
def runJson [KeyGenerator Keys] (raw : Json) : Operation CommandAnswer Keys := fun db =>
  match Command.ofJson raw with
  | .ok command => run .joined command db
  | .error e => (.error e, db)

/-- Runs commands as one. -/
def batch [KeyGenerator Keys] (scoping : Scoping) (commands : List Command) :
    Operation (List CommandAnswer) Keys :=
  within scoping (inOrder (run .joined) 0 commands)

/-- Decodes and runs commands as one. -/
def batchJson [KeyGenerator Keys] (scoping : Scoping) (commands : List Json) :
    Operation (List CommandAnswer) Keys :=
  within scoping (inOrder runJson 0 commands)

/-- Runs a request. -/
def execute [KeyGenerator Keys] (scoping : Scoping) : Request → Operation Answer Keys
  | .create r => mapResult .keys (create scoping r)
  | .read r => mapResult .rows (read scoping r)
  | .update r => mapResult .count (update scoping r)
  | .delete r => mapResult .count (delete scoping r)
  | .batch commands => mapResult .batch (batchJson scoping commands)

end Database

end Tabula
