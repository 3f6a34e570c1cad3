import Tabula.Logic.Formula
import Tabula.Query.Comparison
import Tabula.Sql.Token

/-!
# Statements

The four statements that requests become. A statement is kept as data, which the store executes,
and is written as text with parameters. All columns of conditions and select lists are qualified
by the source they belong to.
-/

namespace Tabula.Sql

/-! ## Columns and conditions -/

/-- A column of a named source. -/
structure ColumnRef where
  source : String
  column : String
  deriving DecidableEq, Repr

/-- A column as tokens. -/
def ColumnRef.tokens (r : ColumnRef) : List Token :=
  [.name r.source, .dot, .name r.column]

/-- A column as text. -/
def ColumnRef.text (r : ColumnRef) : String := render r.tokens

/-- What a column is compared with. -/
inductive Operand where
  | value (v : Value)
  | list (vs : List Value)
  deriving Repr, BEq

/-- An operand as tokens. -/
def Operand.tokens : Operand → List Token
  | .value v => [.parameter v]
  | .list vs => bracketed (commas (vs.map fun v => [.parameter v]))

/-- One comparison of a column with values. -/
structure Test where
  column : ColumnRef
  method : Comparison
  operand : Operand
  deriving Repr, BEq

/-- A comparison as tokens. -/
def Test.tokens (t : Test) : List Token :=
  t.column.tokens ++ words t.method.operator ++ t.operand.tokens

/-- What a statement requires of rows. -/
abbrev Condition := Formula Test

namespace Condition

/-- Brackets around a conjunction. -/
def grouped (c : Condition) (tokens : List Token) : List Token :=
  match c with
  | .all _ => bracketed tokens
  | _ => tokens

mutual

/-- A condition as tokens. A conjunction inside a conjunction of several parts or inside a
disjunction is bracketed, a disjunction always; an empty conjunction is the literal one. -/
def tokens : Condition → List Token
  | .atom t => t.tokens
  | .all [] => [.number "1"]
  | .all [part] => tokens part
  | .all (part :: parts) => separated [.word "AND"] (groups (part :: parts))
  | .any parts => bracketed (separated [.word "OR"] (groups parts))

/-- The parts of a condition as tokens, conjunctions in brackets. -/
def groups : List Condition → List (List Token)
  | [] => []
  | part :: parts => grouped part (tokens part) :: groups parts

end

/-- The clause that imposes a condition, if there is one. -/
def clause : Option Condition → List Token
  | none => []
  | some c => .word "WHERE" :: tokens c

end Condition

/-! ## Statements -/

/-- The direction of an ordering. -/
inductive Direction where
  | ascending
  | descending
  deriving DecidableEq, Repr

/-- The keyword of a direction. -/
def Direction.keyword : Direction → String
  | .ascending => "ASC"
  | .descending => "DESC"

/-- A table joined to the sources before it. -/
structure JoinStep where
  table : String
  aliasName : String
  left : ColumnRef
  method : Comparison
  rightColumn : String
  deriving DecidableEq, Repr

/-- The column of the joined table that a step compares. -/
def JoinStep.right (s : JoinStep) : ColumnRef := ⟨s.aliasName, s.rightColumn⟩

/-- A step as tokens. -/
def JoinStep.tokens (s : JoinStep) : List Token :=
  [.word "JOIN", .name s.table, .word "AS", .name s.aliasName, .word "ON"] ++ s.left.tokens
    ++ words s.method.operator ++ s.right.tokens

/-- Reads rows. -/
structure Select where
  columns : List ColumnRef
  table : String
  joins : List JoinStep
  condition : Option Condition
  ordering : List (ColumnRef × Direction)
  limit : Option Int64
  deriving Repr

/-- The tokens of a select statement. -/
def Select.tokens (s : Select) : List Token :=
  let ordering := s.ordering.map fun (r, d) => r.tokens ++ [.word d.keyword]
  [.word "SELECT"] ++ commas (s.columns.map ColumnRef.tokens)
    ++ [.word "FROM", .name s.table] ++ s.joins.flatMap JoinStep.tokens
    ++ Condition.clause s.condition
    ++ (if ordering.isEmpty then [] else words ["ORDER", "BY"] ++ commas ordering)
    ++ (match s.limit with
      | none => []
      | some n => [.word "LIMIT", .parameter (.int n)])

/-- Adds one row. -/
structure Insert where
  table : String
  values : RowValues
  deriving Repr

/-- The tokens of an insert statement. -/
def Insert.tokens (s : Insert) : List Token :=
  [.word "INSERT", .word "INTO", .name s.table]
    ++ (if s.values.isEmpty then words ["DEFAULT", "VALUES"]
      else
        bracketed (commas (s.values.map fun (column, _) => [.name column])) ++ [.word "VALUES"]
          ++ bracketed (commas (s.values.map fun (_, v) => [.parameter v])))

/-- Sets columns of the rows that meet a condition. -/
structure Update where
  table : String
  values : RowValues
  condition : Option Condition
  deriving Repr

/-- The tokens of an update statement. -/
def Update.tokens (s : Update) : List Token :=
  [.word "UPDATE", .name s.table, .word "SET"]
    ++ commas (s.values.map fun (column, v) => [.name column, .word "=", .parameter v])
    ++ Condition.clause s.condition

/-- Removes the rows that meet a condition. -/
structure Delete where
  table : String
  condition : Option Condition
  deriving Repr

/-- The tokens of a delete statement. -/
def Delete.tokens (s : Delete) : List Token :=
  [.word "DELETE", .word "FROM", .name s.table] ++ Condition.clause s.condition

end Tabula.Sql
