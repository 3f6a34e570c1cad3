import Tabula.Request.Basic

/-!
# Request documents

A request arrives as a JSON object with the name of a command and its arguments. Arguments may be
given under older names, as an array in order, or left out where a default exists; they are
written under their present names, those that are absent left out.
-/

namespace Tabula

open Json

namespace Request

/-! ## Arguments -/

/-- Reads the values of a row. -/
def rowDecoder : Decoder RowValues := .assoc Value.decoder

/-- The field that names a table, which changes once called the entity type. -/
def tableField : Fields String := .required ⟨"tablename", ["entity_type"]⟩ .string

/-- The field that holds a filter, kept as JSON. -/
def filtersField : Fields (Option Json) := .optional ⟨"filters", []⟩ .json

/-- Reads the direction of an ordering. -/
def directionDecoder : Decoder Sql.Direction :=
  .variant [
    (⟨"asc", ["Asc", "ASC"]⟩, .nothing .ascending),
    (⟨"desc", ["Desc", "DESC"]⟩, .nothing .descending)]

/-- Reads the arguments of a create request. -/
def createDecoder : Decoder CreateRequest :=
  Fields.record "CreateArgs" true <|
    CreateRequest.mk <$> tableField
      <*> .required ⟨"rows", ["list_of_values"]⟩ (.list rowDecoder)

/-- Reads the arguments of a read request. -/
def readDecoder : Decoder ReadRequest :=
  Fields.record "ReadRequest" true <|
    ReadRequest.mk <$> .required ⟨"tablename", []⟩ .string
      <*> .orElse ⟨"columns", ["colnames"]⟩ (.list .string) [wildcard]
      <*> filtersField
      <*> .optional ⟨"joins", []⟩ (.assoc (.list (.list .string)))
      <*> .optional ⟨"limit", []⟩ .natural
      <*> .optional ⟨"ordering", []⟩ (.list (.pair .string directionDecoder))

/-- Reads the arguments of an update request. -/
def updateDecoder : Decoder UpdateRequest :=
  Fields.record "UpdateArgs" true <|
    UpdateRequest.mk <$> tableField <*> .required ⟨"values", []⟩ rowDecoder <*> filtersField

/-- Reads the arguments of a delete request. -/
def deleteDecoder : Decoder DeleteRequest :=
  Fields.record "DeleteArgs" true (DeleteRequest.mk <$> tableField <*> filtersField)

/-- Reads the arguments of a batch: its commands, which stay JSON. -/
def batchDecoder : Decoder (List Json) :=
  Fields.record "BatchArgs" true (id <$> .required ⟨"cmds", ["commands"]⟩ (.list .json))

/-! ## Envelopes -/

/-- A command's name and its arguments. -/
structure Envelope where
  command : String
  arguments : Json

/-- Reads an envelope. -/
def Envelope.decoder : Decoder Envelope :=
  Fields.record "Envelope" true <|
    Envelope.mk <$> .required ⟨"cmd", []⟩ .string <*> .required ⟨"kwargs", []⟩ .json

/-- The envelope that a JSON value is; only an object is one. -/
def Envelope.ofJson : Json → Except Error Envelope
  | .object fields =>
    (decoder.ofJson (.object fields)).mapError fun e => .request (.malformed e)
  | _ => .error (.request .notMapping)

/-- Decodes the arguments of a command. -/
def Envelope.decode {α : Type} (e : Envelope) (d : Decoder α) : Except Error α :=
  (d.ofJson e.arguments).mapError fun reason => .request (.invalidArguments e.command reason)

/-- The request that a JSON value describes. -/
def ofJson (raw : Json) : Except Error Request := do
  let e ← Envelope.ofJson raw
  match e.command with
  | "create" => .create <$> e.decode createDecoder
  | "read" => .read <$> e.decode readDecoder
  | "update" => .update <$> e.decode updateDecoder
  | "delete" => .delete <$> e.decode deleteDecoder
  | "batch" => .batch <$> e.decode batchDecoder
  | other => throw (.request (.unknownCommand other))

/-! ## Writing -/

/-- A field that is left out when there is nothing to write. -/
def fieldIfSome (name : String) : Option Json → List (String × Json)
  | some json => [(name, json)]
  | none => []

/-- A row's values as JSON. -/
def rowToJson (row : RowValues) : Json :=
  .object (row.map fun (name, v) => (name, v.toJson))

/-- A direction as JSON. -/
def directionToJson : Sql.Direction → Json
  | .ascending => .string "asc"
  | .descending => .string "desc"

/-- Join declarations as JSON. -/
def joinsToJson (joins : JoinSpec) : Json :=
  .object (joins.map fun (name, chain) =>
    (name, .array (chain.map fun parts => .array (parts.map .string))))

/-- Ordering terms as JSON. -/
def orderingToJson (terms : List (String × Sql.Direction)) : Json :=
  .array (terms.map fun (reference, d) => .array [.string reference, directionToJson d])

/-- The arguments of a create request as JSON. -/
def createToJson (r : CreateRequest) : Json :=
  .object [("tablename", .string r.table), ("rows", .array (r.rows.map rowToJson))]

/-- The arguments of a read request as JSON. -/
def readToJson (r : ReadRequest) : Json :=
  .object ([("tablename", .string r.table), ("columns", .array (r.columns.map .string))]
    ++ fieldIfSome "filters" r.filters
    ++ fieldIfSome "joins" (r.joins.map joinsToJson)
    ++ fieldIfSome "limit" (r.limit.map fun n => .int n)
    ++ fieldIfSome "ordering" (r.ordering.map orderingToJson))

/-- The arguments of an update request as JSON. -/
def updateToJson (r : UpdateRequest) : Json :=
  .object ([("tablename", .string r.table), ("values", rowToJson r.values)]
    ++ fieldIfSome "filters" r.filters)

/-- The arguments of a delete request as JSON. -/
def deleteToJson (r : DeleteRequest) : Json :=
  .object ([("tablename", .string r.table)] ++ fieldIfSome "filters" r.filters)

/-- The arguments of a request as JSON; those of a batch are not written. -/
def argumentsToJson? : Request → Option Json
  | create r => some (createToJson r)
  | read r => some (readToJson r)
  | update r => some (updateToJson r)
  | delete r => some (deleteToJson r)
  | batch _ => none

end Request

namespace Command

/-- The command that a JSON value describes. Reads and batches are requests, not commands. -/
def ofJson (raw : Json) : Except Error Command := do
  let e ← Request.Envelope.ofJson raw
  match e.command with
  | "create" => .create <$> e.decode Request.createDecoder
  | "update" => .update <$> e.decode Request.updateDecoder
  | "delete" => .delete <$> e.decode Request.deleteDecoder
  | "read" => throw (.request (.notInBatch "read"))
  | "batch" => throw (.request (.notInBatch "batch"))
  | other => throw (.request (.unknownCommand other))

/-- A command as a request. -/
def toRequest : Command → Request
  | create r => .create r
  | update r => .update r
  | delete r => .delete r

end Command

end Tabula
