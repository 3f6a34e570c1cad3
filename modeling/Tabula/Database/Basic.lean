import Tabula.Database.Location
import Tabula.Store.Execute

/-!
# Databases and transactions

A database is a store opened with a catalog. Every operation gives its result together with the
database afterwards, also when it fails. An operation either joins a transaction that is open or
runs in one of its own; its own transaction keeps what was changed only if the operation succeeds,
and only one transaction can be open.
-/

namespace Tabula

/-- An open database, with the generator of keys that it may have. -/
structure Database (Keys : Type := KeySource) where
  catalog : Catalog
  store : Store
  keys : Option Keys
  /-- Whether a transaction is open. -/
  inTransaction : Bool := false

/-- What an operation on a database does: its result, and the database afterwards. -/
abbrev Operation (α : Type) (Keys : Type := KeySource) :=
  Database Keys → Except Error α × Database Keys

/-- Whether an operation joins the open transaction or runs in its own. -/
inductive Scoping where
  | joined
  | own
  deriving DecidableEq, Repr

namespace Database

variable {α Keys : Type}

/-- Opens a database over a store: creates the catalog's tables if asked to, then makes the key
source. If that fails, the store keeps the tables that were created before. -/
def openStore (c : Configuration) (catalog : Catalog) (entropy : Entropy) (store : Store) :
    Except Error Database × Store :=
  let (created, store) :=
    if c.createsTables then store.defineAll catalog.definitions else (.ok (), store)
  let opened := do
    let _ ← created
    let keys ← KeySource.ofStrategy entropy c.keys
    return { catalog, store := { store with lastId := 0 }, keys }
  (opened, store)

/-- The database with another generator of keys. -/
def withGenerator {Others : Type} (db : Database Others) (keys : Keys) : Database Keys :=
  { db with keys := some keys }

/-! ## Transactions -/

/-- Runs an operation in a new transaction: its changes are kept if it succeeds and undone if it
fails. The key source and the last row id are not part of what is undone. -/
def transaction (body : Operation α Keys) : Operation α Keys := fun db =>
  if db.inTransaction then (.error (.request .transactionOpen), db)
  else
    match body { db with inTransaction := true } with
    | (.ok a, after) => (.ok a, { after with inTransaction := false })
    | (.error e, after) =>
      (.error e,
        { after with
          inTransaction := false
          store := { after.store with relations := db.store.relations } })

/-- Runs an operation in the open transaction or in its own. -/
def within (scoping : Scoping) (body : Operation α Keys) : Operation α Keys :=
  match scoping with
  | .joined => body
  | .own => transaction body

/-! ## Statements -/

/-- A statement that changes rows; the result is their count. -/
def change (run : Store → Except Error (Store × Nat)) : Operation Nat Keys := fun db =>
  match run db.store with
  | .ok (store, count) => (.ok count, { db with store })
  | .error e => (.error e, db)

/-- Adds one row and gives its row id. -/
def addRow (statement : Sql.Insert) : Operation Int64 Keys := fun db =>
  match db.store.insert statement with
  | .ok store => (.ok store.lastId, { db with store })
  | .error e => (.error e, db)

end Database

end Tabula
