import Tabula.Catalog.ColumnType
import Tabula.Query.Comparison
import Tabula.Sql.Token

/-!
# Errors

Every operation fails with an `Error`: a kind and its cause. The wording of each cause is here and
nowhere else. A client error is the fault of the request or of the data it would break; storage
and configuration errors are not.
-/

namespace Tabula

/-! ## Causes -/

/-- What is wrong with a catalog, or with a name looked up in one. -/
inductive SchemaError where
  | invalidTableName (name : String)
  | invalidColumnName (name : String)
  | noColumns (table : String)
  | duplicateColumn (table column : String)
  | unfitDefault (table column : String) (type : ColumnType)
  | severalPrimaryKeys (table : String)
  | primaryKeyType (table column : String) (type : ColumnType)
  | emptyConstraint (constraint table : String)
  | constraintColumn (constraint table column : String)
  | duplicateTable (table : String)
  | constraintNamedLikeTable (constraint table : String)
  | duplicateConstraint (constraint owner table : String)
  | unknownTable (table : String)
  | unknownColumn (table column : String)
  | tooManyComponents (reference : String)
  | unknownAlias (reference aliasName : String)
  | misplacedWildcard (reference : String)
  | noPrimaryKey (table : String)
  deriving DecidableEq, Repr

/-- A comparand that does not fit its method. -/
structure ComparandError where
  method : Comparison
  expected : String
  column : String
  found : String
  deriving DecidableEq, Repr

/-- What is wrong with a filter. -/
inductive FilterError where
  | notMapping (found : String)
  | orWithoutList (found : String)
  | orEmpty
  | unknownMethod (name : String)
  | methodWithoutMapping (method found : String)
  | comparand (e : ComparandError)
  | unexpectedOperand (method : Comparison) (found column : String)
  deriving DecidableEq, Repr

/-- What is wrong with a join declaration. -/
inductive JoinError where
  | invalidAlias (aliasName : String)
  | aliasOfBase (aliasName : String)
  | noSteps (aliasName : String)
  | stepLength (aliasName : String) (step length : Nat)
  | unknownMethod (aliasName : String) (step : Nat) (name : String)
  | listMethod (aliasName : String) (step : Nat) (name : String)
  deriving DecidableEq, Repr

/-- What is wrong with a request. -/
inductive RequestError where
  | notMapping
  | malformed (reason : Json.DecodeError)
  | invalidArguments (command : String) (reason : Json.DecodeError)
  | unknownCommand (command : String)
  | notInBatch (command : String)
  | limit (n : Nat)
  | noValues (table : String)
  | transactionOpen
  | abandoned (reason : String)
  deriving DecidableEq, Repr

/-- What about the data makes a change impossible. -/
inductive DatabaseError where
  | wrongType (table column : String) (expected : ColumnType) (found : String)
  | nullNotAllowed (table column : String)
  | keysExhausted (table : String) (attempts : Nat)
  | notUnique (columns : List (String × String))
  | notUniqueIndex (index : String)
  | missingValue (table column : String)
  | datatypeMismatch
  deriving DecidableEq, Repr

/-- What the store refuses for reasons of its own. -/
inductive StorageError where
  | cannotOpen
  | unknownTable (table : String)
  | unknownColumn (column : String)
  | ambiguousColumn (column : String)
  | nameTaken (name : String)
  | reservedName (name : String)
  | duplicateColumn (column : String)
  | tooManyColumns (owner : String)
  | tooManyResults
  | tooManyOrderings
  | tooManySettings
  | tooManyTables
  | tooManyParameters
  | tooDeep
  | patternTooLong
  | unreadableStatement
  | unreadableDefault
  | listParameter
  | fixedTable (table : String)
  | readOnly
  | notDatabase
  deriving DecidableEq, Repr

/-- What is wrong with the configuration. -/
inductive ConfigError where
  | schemaDocument (reason : Json.DecodeError)
  | idWidth (bits : Nat)
  | uriScheme (uri : String)
  | uriPath (uri : String)
  deriving DecidableEq, Repr

/-! ## Wording -/

/-- The wording of a catalog error. -/
def SchemaError.message : SchemaError → String
  | invalidTableName name => s!"invalid table name '{name}'"
  | invalidColumnName name => s!"invalid column name '{name}'"
  | noColumns table => s!"table {table} has no columns"
  | duplicateColumn table column => s!"table {table} declares column {column} more than once"
  | unfitDefault table column type =>
    s!"default of {table}.{column} does not fit a {type.name} column"
  | severalPrimaryKeys table => s!"table {table} declares more than one primary key"
  | primaryKeyType table column type =>
    s!"primary key {table}.{column} must be int or string, got {type.name}"
  | emptyConstraint constraint table => s!"unique constraint {constraint} on {table} has no columns"
  | constraintColumn constraint table column =>
    s!"unique constraint {constraint} references unknown column {table}.{column}"
  | duplicateTable table => s!"table {table} is defined more than once"
  | constraintNamedLikeTable constraint table =>
    s!"unique constraint {constraint} on {table} has the name of a table"
  | duplicateConstraint constraint owner table =>
    s!"unique constraint {constraint} is declared on both {owner} and {table}"
  | unknownTable table => s!"no table exists called {table}"
  | unknownColumn table column => s!"table {table} has no column {column}"
  | tooManyComponents reference =>
    s!"too many components in column '{reference}', " ++
      "format must be either 'column' or 'alias.column'"
  | unknownAlias reference aliasName =>
    s!"column '{reference}' requires alias that wasn't provided: {aliasName}"
  | misplacedWildcard reference => s!"wildcard '{reference}' is only valid in a column list"
  | noPrimaryKey table => s!"table {table} has no primary key"

/-- The wording of a comparand that does not fit. -/
def ComparandError.message (e : ComparandError) : String :=
  s!"comparison '{e.method.name}' expects {e.expected} for column '{e.column}', got {e.found}"

/-- The wording of a filter error. -/
def FilterError.message : FilterError → String
  | notMapping found => s!"filters must be a mapping, got {found}"
  | orWithoutList found => s!"'or' filter requires a list of filters, got {found}"
  | orEmpty => "'or' filter requires at least one filter"
  | unknownMethod name => s!"'{name}' is not a valid comparison method"
  | methodWithoutMapping method found =>
    s!"'{method}' filter requires a mapping of columns and values, got {found}"
  | comparand e => e.message
  | unexpectedOperand method found column =>
    s!"comparison '{method.name}' got unexpected type {found} for column '{column}'"

/-- The wording of a join error. -/
def JoinError.message : JoinError → String
  | invalidAlias aliasName => s!"'{aliasName}' is not a valid join alias"
  | aliasOfBase aliasName => s!"join alias '{aliasName}' collides with the base table"
  | noSteps aliasName => s!"join '{aliasName}' requires at least one step"
  | stepLength aliasName step length =>
    s!"join '{aliasName}' step {step} requires 4 parameters, got {length}"
  | unknownMethod aliasName step name =>
    s!"join '{aliasName}' step {step}: '{name}' is not a valid comparison method"
  | listMethod aliasName step name =>
    s!"join '{aliasName}' step {step}: '{name}' cannot compare two columns"

/-- The wording of a request error. -/
def RequestError.message : RequestError → String
  | notMapping => "command must be a mapping with 'cmd' and 'kwargs'"
  | malformed reason => s!"malformed command: {reason.message}"
  | invalidArguments command reason => s!"invalid arguments for '{command}': {reason.message}"
  | unknownCommand command => s!"unknown command '{command}'"
  | notInBatch command => s!"'{command}' is not allowed inside a batch"
  | limit n => s!"limit must be a positive integer, got {n}"
  | noValues table => s!"update on {table} requires at least one value"
  | transactionOpen => "a transaction is already open on this thread; pass it to nested calls"
  | abandoned reason => reason

/-- The wording of a database error. -/
def DatabaseError.message : DatabaseError → String
  | wrongType table column expected found =>
    s!"column {table}.{column} expects {expected.name}, got {found}"
  | nullNotAllowed table column => s!"column {table}.{column} may not be null"
  | keysExhausted table attempts =>
    s!"could not generate a unique key for {table} after {attempts} attempts"
  | notUnique columns =>
    "UNIQUE constraint failed: " ++ ", ".intercalate (columns.map fun (t, c) => s!"{t}.{c}")
  | notUniqueIndex index => "UNIQUE constraint failed: index " ++ Sql.quoteText index
  | missingValue table column => s!"NOT NULL constraint failed: {table}.{column}"
  | datatypeMismatch => "datatype mismatch"

/-- The wording of a storage error. -/
def StorageError.message : StorageError → String
  | cannotOpen => "unable to open database file"
  | unknownTable table => s!"no such table: {table}"
  | unknownColumn column => s!"no such column: {column}"
  | ambiguousColumn column => s!"ambiguous column name: {column}"
  | nameTaken name => s!"there is already another table or index with this name: {name}"
  | reservedName name => s!"object name reserved for internal use: {name}"
  | duplicateColumn column => s!"duplicate column name: {column}"
  | tooManyColumns owner => s!"too many columns on {owner}"
  | tooManyResults => "too many columns in result set"
  | tooManyOrderings => "too many terms in ORDER BY clause"
  | tooManySettings => "too many columns in set list"
  | tooManyTables => "at most 64 tables in a join"
  | tooManyParameters => "too many SQL variables"
  | tooDeep => "Expression tree is too large (maximum depth 1000)"
  | patternTooLong => "LIKE or GLOB pattern too complex"
  | unreadableStatement => "unrecognized token"
  | unreadableDefault => "near \"inf\": syntax error"
  | listParameter => "list values cannot be bound to SQL parameters"
  | fixedTable table => s!"table {table} may not be modified"
  | readOnly => "attempt to write a readonly database"
  | notDatabase => "file is not a database"

/-- The wording of a configuration error. -/
def ConfigError.message : ConfigError → String
  | schemaDocument reason => s!"invalid schema document: {reason.message}"
  | idWidth bits => s!"id width must be between 1 and 63 bits, got {bits}"
  | uriScheme uri => s!"unsupported database uri '{uri}', expected sqlite://[/path]"
  | uriPath uri => s!"database uri '{uri}' must be sqlite:// or sqlite:///<path>"

/-! ## Errors -/

/-- Why an operation failed. -/
inductive Error where
  | schema (cause : SchemaError)
  | comparison (cause : ComparandError)
  | filters (cause : FilterError)
  | join (cause : JoinError)
  | request (cause : RequestError)
  | database (cause : DatabaseError)
  | batch (index : Nat) (source : Error)
  | storage (cause : StorageError)
  | config (cause : ConfigError)
  deriving DecidableEq, Repr

namespace Error

/-- The wording of an error. -/
def message : Error → String
  | schema cause => s!"schema error: {cause.message}"
  | comparison cause => s!"invalid comparison: {cause.message}"
  | filters cause => s!"invalid filters: {cause.message}"
  | join cause => s!"invalid join: {cause.message}"
  | request cause => s!"invalid request: {cause.message}"
  | database cause => s!"database error: {cause.message}"
  | batch index source =>
    let inner := source.message
    s!"invalid batch command at index {index}: {inner}"
  | storage cause => s!"storage error: {cause.message}"
  | config cause => s!"configuration error: {cause.message}"

/-- Whether the request, or the data it would break, is at fault. -/
def isClientError : Error → Bool
  | batch _ source => source.isClientError
  | storage _ | config _ => false
  | _ => true

/-- The position of the command that failed in a batch. -/
def batchIndex? : Error → Option Nat
  | batch index _ => some index
  | _ => none

end Error

end Tabula
