import Tabula.Query.Join

/-!
# Requests

What a caller can ask for: to create, read, update and delete rows, or to run several changes as
one. The changes are also the commands of a batch.
-/

namespace Tabula

/-- Asks for new rows. -/
structure CreateRequest where
  table : String
  rows : List RowValues
  deriving Repr

/-- Asks for rows. -/
structure ReadRequest where
  table : String
  columns : List String := [wildcard]
  filters : Option Json := none
  joins : Option JoinSpec := none
  limit : Option Nat := none
  ordering : Option (List (String × Sql.Direction)) := none
  deriving Repr

/-- Asks for rows to be changed. -/
structure UpdateRequest where
  table : String
  values : RowValues
  filters : Option Json := none
  deriving Repr

/-- Asks for rows to be removed. -/
structure DeleteRequest where
  table : String
  filters : Option Json := none
  deriving Repr

/-- A change. -/
inductive Command where
  | create (r : CreateRequest)
  | update (r : UpdateRequest)
  | delete (r : DeleteRequest)
  deriving Repr

/-- A request. The commands of a batch are decoded only when their turn comes. -/
inductive Request where
  | create (r : CreateRequest)
  | read (r : ReadRequest)
  | update (r : UpdateRequest)
  | delete (r : DeleteRequest)
  | batch (commands : List Json)
  deriving Repr

/-- The name of a command. -/
def Command.name : Command → String
  | create _ => "create"
  | update _ => "update"
  | delete _ => "delete"

/-- The name of a request. -/
def Request.name : Request → String
  | create _ => "create"
  | read _ => "read"
  | update _ => "update"
  | delete _ => "delete"
  | batch _ => "batch"

end Tabula
