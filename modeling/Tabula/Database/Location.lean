import Tabula.Database.Key

/-!
# Configuration

Where a database is kept, whether its tables are created when it is opened, and how keys are made.
A location is written `sqlite://` for memory or `sqlite:///path` for a file.
-/

namespace Tabula

/-- How a database is opened. -/
structure Configuration where
  /-- The file that holds the database; `none` for memory. -/
  path : Option String := none
  keys : KeyStrategy := .none
  createsTables : Bool := true
  deriving Repr

namespace Configuration

/-- What every location starts with. -/
def scheme : String := "sqlite://"

/-- The path part of a location. -/
def pathOf? (uri : String) : Option String :=
  if scheme.isPrefixOf uri then some (String.ofList (uri.toList.drop scheme.length)) else none

/-- The configuration of a location. -/
def ofUri (uri : String) : Except Error Configuration :=
  match pathOf? uri with
  | none => .error (.config (.uriScheme uri))
  | some "" => .ok {}
  | some "/:memory:" => .ok {}
  | some path =>
    match path.toList with
    | '/' :: c :: rest => .ok { path := some (String.ofList (c :: rest)) }
    | _ => .error (.config (.uriPath uri))

/-- The location as text. -/
def uri (c : Configuration) : String :=
  match c.path with
  | some path => scheme ++ "/" ++ path
  | none => scheme

/-- The configuration that leaves the tables as they are. -/
def withoutTableCreation (c : Configuration) : Configuration :=
  { c with createsTables := false }

end Configuration

end Tabula
