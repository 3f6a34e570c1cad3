import Tabula.Report.Format

/-!
# Sessions

A session runs the requests of a text in order, each in a transaction of its own, and stops at the
first that fails. All requests are decoded before the first one runs.
-/

namespace Tabula

/-- Why a session or a command line fails. -/
inductive SessionError where
  | operation (e : Error)
  | unreadable (path reason : String)
  | invalidJson (e : Json.SyntaxError)
  deriving Repr

namespace SessionError

/-- The wording of an error. -/
def message : SessionError → String
  | operation e => e.message
  | unreadable path reason => s!"failed to read {path}: {reason}"
  | invalidJson e => s!"invalid JSON input: {e.message}"

/-- The exit code of a program that fails with an error: two if the input is at fault, else one. -/
def exitCode : SessionError → Nat
  | operation e => if e.isClientError then 2 else 1
  | invalidJson _ => 2
  | unreadable _ _ => 1

end SessionError

namespace Session

/-- The requests of a text: the items of an array, or the one request that it holds. -/
def requests (input : String) : Except SessionError (List Request) := do
  let raw ← (Json.parse input).mapError .invalidJson
  let decoded := match raw with
    | .array items => items.mapM Request.ofJson
    | raw => (fun r => [r]) <$> Request.ofJson raw
  decoded.mapError .operation

/-- Runs requests in order up to the first that fails. -/
def runAll (format : Format) : List Request → Operation (List String)
  | [], db => (.ok [], db)
  | r :: rs, db =>
    match Database.execute .own r db with
    | (.error e, db) => (.error e, db)
    | (.ok a, db) =>
      match runAll format rs db with
      | (.ok outputs, db) => (.ok (format.answer a :: outputs), db)
      | (.error e, db) => (.error e, db)

/-- Runs the requests of a text and reports each answer. -/
def run (format : Format) (input : String) (db : Database) :
    Except SessionError (List String) × Database :=
  match requests input with
  | .error e => (.error e, db)
  | .ok rs =>
    let (result, db) := runAll format rs db
    (result.mapError .operation, db)

end Session

end Tabula
