import Tabula.Catalog.Studio
import Tabula.CommandLine.Arguments
import Tabula.CommandLine.Host
import Tabula.Database.Medium
import Tabula.Report.Session
import Tabula.Store.Archive

/-!
# The program

What the program does with its arguments on a host. A database file is made, and gets its tables,
before the requests are read. Nothing is written to the output before everything has succeeded.
-/

namespace Tabula.CommandLine

variable {m : Type → Type} [Monad m]

/-- What the program leaves behind. -/
structure Outcome where
  status : Nat
  output : String := ""
  errors : String := ""
  /-- Why the run failed, if it did so after its arguments were understood. -/
  failure : Option SessionError := none

/-- Lines of text. -/
def unlines (lines : List String) : String :=
  String.join (lines.map fun line => line ++ "\n")

/-! ## Reading -/

/-- The text of some bytes that were read under a name. -/
def textAt (name : String) (bytes : Except Fault ByteArray) : Except SessionError String :=
  (bytes.bind textOfBytes).mapError fun fault => .unreadable name fault.reason

/-- The catalog of a run. -/
def loadCatalog (h : Host m) : Option String → m (Except SessionError Catalog)
  | none => return Studio.catalog.mapError .operation
  | some path => do
    let bytes ← h.readFile path
    return do (Catalog.ofText (← textAt path bytes)).mapError .operation

/-- The requests of a run; a dash stands for the standard input. -/
def readRequests (h : Host m) (path : String) : m (Except SessionError String) := do
  return textAt path (← if path = "-" then h.readInput else h.readFile path)

/-! ## Databases -/

/-- The configuration of a run. -/
def configuration (a : Arguments) : Except Error Configuration := do
  let c ← Configuration.ofUri a.uri
  return if a.makesKeys then { c with keys := .uuid a.keyBits } else c

/-- The store of a medium at a time, of which the file has some bytes. -/
def storeAt (now : Int64) (medium : Medium) (bytes : ByteArray) : Store :=
  let store := (Store.ofArchive? now bytes).getD { Store.empty now with standing := .foreign }
  if store.standing = .writable && !medium.mayWrite then { store with standing := .readOnly }
  else store

/-- Opens the store of a medium; there is none if it cannot be opened. -/
def openStore (h : Host m) (medium : Medium) : m (Option Store) := do
  let now ← h.now
  match medium.file with
  | none => return some (storeAt now medium .empty)
  | some path => return (← h.openDatabase path medium.mayCreate).map (storeAt now medium)

/-- Keeps a store in the file of its medium. -/
def keepStore (h : Host m) (medium : Medium) (store : Store) : m Unit :=
  match medium.file, store.standing with
  | some path, .writable => h.writeDatabase path store.archive
  | _, _ => return

/-- Opens the database of a configuration, or tells why that fails; also gives its medium. -/
def openDatabase (h : Host m) (c : Configuration) (catalog : Catalog) :
    m (Except Error (Medium × Database)) := do
  match c.medium? with
  | none => return .error (.storage .cannotOpen)
  | some medium =>
    match ← openStore h medium with
    | none => return .error (.storage .cannotOpen)
    | some store =>
      let (opened, store) := Database.openStore c catalog (← h.entropy) store
      keepStore h medium store
      return opened.map fun db => (medium, db)

/-! ## Running -/

/-- Runs requests against a database and gives the reports. -/
def exec (h : Host m) (a : Arguments) (catalog : Catalog) (input : String) :
    m (Except SessionError (List String)) := do
  match configuration a with
  | .error e => return .error (.operation e)
  | .ok c =>
    match ← openDatabase h c catalog with
    | .error e => return .error (.operation e)
    | .ok (medium, db) =>
      match ← readRequests h input with
      | .error e => return .error e
      | .ok text =>
        let (result, db) := Session.run a.format text db
        keepStore h medium db.store
        return result

/-- Does what the arguments ask for. -/
def perform (h : Host m) (a : Arguments) : m (Except SessionError (List String)) := do
  match ← loadCatalog h a.schema with
  | .error e => return .error e
  | .ok catalog =>
    match a.action with
    | .tables => return .ok [a.format.catalog catalog]
    | .schema => return .ok (catalog.definitions.map fun d => d.text ++ ";")
    | .exec input => exec h a catalog input

/-- The name and version of the program. -/
def versionText : String := "rowgate 0.1.0"

/-- The usage of the program. -/
def helpText : String := unlines [
  "Run declarative CRUD requests against a database",
  "",
  "Usage: rowgate [OPTIONS] <COMMAND>",
  "",
  "Commands:",
  "  tables  List the tables of the schema",
  "  schema  Print the DDL for the schema",
  "  exec    Execute a JSON request, or a list of requests, from a file or stdin",
  "  help    Print this message or the help of the given subcommand(s)",
  "",
  "Options:",
  "      --uri <URI>          Database URI, sqlite:// or sqlite:///path [default: sqlite://]",
  "      --schema <SCHEMA>    JSON schema document; the built-in studio schema when omitted",
  "      --ids                Generate random keys for created rows that have none",
  "      --id-bits <ID_BITS>  Width of generated keys in bits [default: 63]",
  "      --format <FORMAT>    Output format [default: table] [possible values: table, json]",
  "  -h, --help               Print help",
  "  -V, --version            Print version"]

/-- Runs the program. -/
def run (h : Host m) (arguments : List String) : m Outcome := do
  match Invocation.ofArguments arguments with
  | .help => return { status := 0, output := helpText }
  | .version => return { status := 0, output := unlines [versionText] }
  | .misuse => return { status := 2, errors := unlines ["error: invalid arguments", "", helpText] }
  | .run a =>
    match ← perform h a with
    | .ok outputs => return { status := 0, output := unlines outputs }
    | .error e =>
      let errors := unlines [a.format.error e.message]
      return { status := e.exitCode, errors, failure := some e }

end Tabula.CommandLine
