import Tabula.Catalog.Basic
import Tabula.Sql.Token

/-!
# Definitions

The statements that create a catalog's tables and unique indexes. A primary key is left to accept
null only when it is a whole number, because the store then assigns it.
-/

namespace Tabula

namespace Sql

/-- What a column is set to when a row leaves it out. -/
inductive Literal where
  | value (v : Value)
  | currentTime
  deriving Repr, BEq

/-- The tokens of a literal. Truth values are the numbers zero and one. A float that is not finite has
no numeral, it is written as a word. -/
def Literal.tokens : Literal → List Token
  | .value (.bool b) => [.number (if b then "1" else "0")]
  | .value (.int n) => [.number (toString n.toInt)]
  | .value (.float x) =>
    let spelled := numberLayout.text x
    [if x.isFinite then .number spelled else .word spelled]
  | .value (.string s) => [.text s]
  | .value .null => [.word "NULL"]
  | .value (.list _) => [.word "NULL"]
  | .currentTime =>
    bracketed [.call "CAST", .call "strftime", .text "%s", .comma, .text "now", .closeBracket,
      .word "AS", .word "INTEGER", .closeBracket]

/-- Whether a literal can be read: a sign stands before a numeral, but not before a word. -/
def Literal.isReadable : Literal → Bool
  | .value (.float x) => x.isFinite || !(x < 0)
  | _ => true

/-- A column of a table to be created. -/
structure ColumnDefinition where
  name : String
  type : String
  isKey : Bool
  notNull : Bool
  isUnique : Bool
  default? : Option Literal
  deriving Repr, BEq

/-- The tokens of a column definition. -/
def ColumnDefinition.tokens (c : ColumnDefinition) : List Token :=
  [.name c.name, .word c.type]
    ++ (if c.isKey then words ["PRIMARY", "KEY"] else [])
    ++ (if c.notNull then words ["NOT", "NULL"] else [])
    ++ (if c.isUnique then words ["UNIQUE"] else [])
    ++ (match c.default? with
      | none => []
      | some literal => .word "DEFAULT" :: literal.tokens)

/-- A statement that creates a table or a unique index unless the name is in use. -/
inductive Definition where
  | table (name : String) (columns : List ColumnDefinition)
  | index (name table : String) (columns : List String)
  deriving Repr, BEq

/-- What a definition creates. -/
def Definition.verb : Definition → List Token
  | .table _ _ => words ["CREATE", "TABLE"]
  | .index _ _ _ => words ["CREATE", "UNIQUE", "INDEX"]

/-- A definition from the name on. -/
def Definition.body : Definition → List Token
  | .table name columns =>
    .name name :: bracketed (commas (columns.map ColumnDefinition.tokens))
  | .index name owner columns =>
    [.name name, .word "ON", .name owner] ++ bracketed (commas (columns.map fun c => [.name c]))

/-- The tokens of a definition. -/
def Definition.tokens (d : Definition) : List Token :=
  d.verb ++ words ["IF", "NOT", "EXISTS"] ++ d.body

/-- The text of a definition. -/
def Definition.text (d : Definition) : String := render d.tokens

/-- The text of a definition without the condition that the name is free. -/
def Definition.unconditionalText (d : Definition) : String := render (d.verb ++ d.body)

end Sql

namespace Default

/-- A column's default as a literal. -/
def literal : Default → Sql.Literal
  | value v => .value v
  | currentTimestamp => .currentTime

end Default

/-- The definition of a column. -/
def Column.definition (c : Column) : Sql.ColumnDefinition where
  name := c.name
  type := c.type.sqlType
  isKey := c.isKey
  notNull := if c.isKey then c.type ≠ .int else !c.nullable
  isUnique := c.isUnique
  default? := c.default?.map Default.literal

/-- The definitions of a table and of its constraints. -/
def Table.definitions (t : Table) : List Sql.Definition :=
  .table t.name (t.columns.map Column.definition)
    :: t.unique.map fun u => .index u.name t.name u.columns

/-- The definitions of all tables, in name order. -/
def Catalog.definitions (c : Catalog) : List Sql.Definition :=
  c.tables.flatMap Table.definitions

end Tabula
