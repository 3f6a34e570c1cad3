import Tabula.Proofs.Result
import Tabula.Proofs.Sql.Literal

/-!
# Reading definitions

The statements that create tables and unique indexes are read by the grammar of SQL. Of that grammar it
is the part in which a column has a type of one word and, in any order, the constraints `PRIMARY KEY`,
`NOT NULL`, `UNIQUE` and `DEFAULT` with a literal or an expression in brackets. A semicolon is no lexeme
unless it is quoted, so what can be read is one statement. Main statements: the text of a table's
definition reads as the declaration of the same columns (`readDeclaration_table`), and that of an index
as the declaration of the same index (`readDeclaration_index`).
-/

namespace Tabula.Sql

open Store (Numeral)

/-! ## What definitions declare -/

/-- What the text of a definition sets a column to when a row leaves it out. -/
inductive Initial where
  | null
  | number (n : Numeral)
  | text (s : String)
  | expression (lexemes : List Lexeme)

/-- What the text of a definition says of a column. -/
structure ColumnDeclaration where
  name : String
  type : String
  isKey : Bool := false
  notNull : Bool := false
  isUnique : Bool := false
  initial? : Option Initial := none

/-- What the text of a definition says. -/
inductive Declaration where
  | table (unlessExists : Bool) (name : String) (columns : List ColumnDeclaration)
  | uniqueIndex (unlessExists : Bool) (name owner : String) (columns : List String)

/-! ## The reader of columns -/

/-- What the reader of columns waits for. -/
inductive ColumnsReader.Awaited where
  | name
  | type (name : String)
  /-- A constraint of the column, or the end of its declaration. -/
  | constraint (c : ColumnDeclaration)
  | key (c : ColumnDeclaration)
  | null (c : ColumnDeclaration)
  | initial (c : ColumnDeclaration)
  /-- The rest of an expression, inside of some brackets of its own. -/
  | expression (c : ColumnDeclaration) (depth : Nat) (read : List Lexeme)
  | nothing

/-- A reader in the middle of the columns of a table. -/
structure ColumnsReader where
  /-- The columns that are complete. -/
  columns : List ColumnDeclaration
  awaited : ColumnsReader.Awaited

namespace ColumnsReader

/-- A reader that has read one more lexeme. -/
def step (s : ColumnsReader) (l : Lexeme) : Option ColumnsReader :=
  match s.awaited, l with
  | .name, .name name => some { s with awaited := .type name }
  | .type name, .word type => some { s with awaited := .constraint { name, type } }
  | .constraint c, .word "PRIMARY" => some { s with awaited := .key c }
  | .key c, .word "KEY" => some { s with awaited := .constraint { c with isKey := true } }
  | .constraint c, .word "NOT" => some { s with awaited := .null c }
  | .null c, .word "NULL" => some { s with awaited := .constraint { c with notNull := true } }
  | .constraint c, .word "UNIQUE" =>
    some { s with awaited := .constraint { c with isUnique := true } }
  | .constraint c, .word "DEFAULT" => some { s with awaited := .initial c }
  | .initial c, .word "NULL" =>
    some { s with awaited := .constraint { c with initial? := some .null } }
  | .initial c, .text t =>
    some { s with awaited := .constraint { c with initial? := some (.text t) } }
  | .initial c, .number t =>
    (Numeral.ofText? t).map fun n =>
      { s with awaited := .constraint { c with initial? := some (.number n) } }
  | .initial c, .openBracket => some { s with awaited := .expression c 0 [] }
  | .expression c 0 read, .closeBracket =>
    some { s with awaited := .constraint { c with initial? := some (.expression read) } }
  | .expression c (depth + 1) read, .closeBracket =>
    some { s with awaited := .expression c depth (read ++ [.closeBracket]) }
  | .expression c depth read, .openBracket =>
    some { s with awaited := .expression c (depth + 1) (read ++ [.openBracket]) }
  | .expression c depth read, l => some { s with awaited := .expression c depth (read ++ [l]) }
  | .constraint c, .comma => some ⟨s.columns ++ [c], .name⟩
  | .constraint c, .closeBracket => some ⟨s.columns ++ [c], .nothing⟩
  | _, _ => none

/-- What a reader has read, if that is the end of the columns. -/
def result? (s : ColumnsReader) : Option (List ColumnDeclaration) :=
  match s.awaited with
  | .nothing => some s.columns
  | _ => none

end ColumnsReader

/-! ## The reader of definitions -/

/-- The columns of a table, after the bracket that opens them. -/
def readColumns (lexemes : List Lexeme) : Option (List ColumnDeclaration) := do
  let s ← lexemes.foldlM ColumnsReader.step ⟨[], .name⟩
  s.result?

/-- The columns of an index, after the bracket that opens them. -/
def readNames : List Lexeme → Option (List String)
  | [.name s, .closeBracket] => some [s]
  | .name s :: .comma :: rest => (s :: ·) <$> readNames rest
  | _ => none

/-- Whether a definition is only for a name that is free, and what follows that condition. -/
def condition : List Lexeme → Bool × List Lexeme
  | .word "IF" :: .word "NOT" :: .word "EXISTS" :: rest => (true, rest)
  | rest => (false, rest)

/-- What a row of lexemes declares. -/
def Declaration.ofLexemes? : List Lexeme → Option Declaration
  | .word "CREATE" :: .word "TABLE" :: rest =>
    match condition rest with
    | (unlessExists, .name name :: .openBracket :: body) => .table unlessExists name <$> readColumns body
    | _ => none
  | .word "CREATE" :: .word "UNIQUE" :: .word "INDEX" :: rest =>
    match condition rest with
    | (unlessExists, .name name :: .word "ON" :: .name owner :: .openBracket :: body) =>
      .uniqueIndex unlessExists name owner <$> readNames body
    | _ => none
  | _ => none

/-- What the text of a statement declares. -/
def readDeclaration (text : String) : Option Declaration := do
  let lexemes ← lex text.toList
  Declaration.ofLexemes? lexemes

/-! ## Reading columns -/

namespace ColumnsReader

variable (columns : List ColumnDeclaration) (c : ColumnDeclaration)

/-- A reader that has read a row of tokens. -/
def readTokens (s : ColumnsReader) (tokens : List Token) : Option ColumnsReader :=
  (tokens.flatMap Token.lexemes).foldlM step s

/-- A text in two parts is read one part after the other. -/
theorem readTokens_append (s : ColumnsReader) (a b : List Token) :
    s.readTokens (a ++ b) = (s.readTokens a).bind fun s => s.readTokens b := by
  rw [readTokens, List.flatMap_append, List.foldlM_append]
  rfl

theorem readTokens_append_of_eq {s s' : ColumnsReader} {a : List Token} (h : s.readTokens a = some s')
    (b : List Token) : s.readTokens (a ++ b) = s'.readTokens b := by
  rw [readTokens_append, h, Option.bind_some]

/-- The words of a key make a column one. -/
theorem readTokens_key (isKey : Bool) :
    readTokens ⟨columns, .constraint c⟩ (if isKey then words ["PRIMARY", "KEY"] else [])
      = some ⟨columns, .constraint { c with isKey := isKey || c.isKey }⟩ := by
  cases isKey <;> rfl

/-- The words against null keep a column from it. -/
theorem readTokens_notNull (notNull : Bool) :
    readTokens ⟨columns, .constraint c⟩ (if notNull then words ["NOT", "NULL"] else [])
      = some ⟨columns, .constraint { c with notNull := notNull || c.notNull }⟩ := by
  cases notNull <;> rfl

/-- The word for it makes a column unique. -/
theorem readTokens_unique (isUnique : Bool) :
    readTokens ⟨columns, .constraint c⟩ (if isUnique then words ["UNIQUE"] else [])
      = some ⟨columns, .constraint { c with isUnique := isUnique || c.isUnique }⟩ := by
  cases isUnique <;> rfl

end ColumnsReader

open ColumnsReader

/-- Whether tokens can be read as the initial value of a column. -/
structure Initial.IsReadFrom (i : Initial) (tokens : List Token) : Prop where
  isLegible : isLegible tokens = true
  read : ∀ columns c, readTokens ⟨columns, .initial c⟩ tokens
    = some ⟨columns, .constraint { c with initial? := some i }⟩

/-- Whether tokens can be read as the declaration of a column. -/
structure ColumnDeclaration.IsReadFrom (c : ColumnDeclaration) (tokens : List Token) : Prop where
  isLegible : isLegible tokens = true
  read : ∀ columns, readTokens ⟨columns, .name⟩ tokens = some ⟨columns, .constraint c⟩

/-- The tokens of the default of a column. -/
def defaultTokens : Option Literal → List Token
  | none => []
  | some literal => .word "DEFAULT" :: literal.tokens

/-- The definition of a column is its name, its type, its constraints and its default. -/
theorem ColumnDefinition.tokens_eq (c : ColumnDefinition) :
    c.tokens = [.name c.name, .word c.type]
      ++ (if c.isKey then words ["PRIMARY", "KEY"] else [])
      ++ (if c.notNull then words ["NOT", "NULL"] else [])
      ++ (if c.isUnique then words ["UNIQUE"] else [])
      ++ defaultTokens c.default? := by
  unfold tokens
  cases c.default? <;> rfl

section Columns

variable {default? : Option Literal} {initial? : Option Initial}
variable (h : Option.Rel (fun l i => Initial.IsReadFrom i l.tokens) default? initial?)
include h

/-- A default is legible. -/
theorem isLegible_defaultTokens : isLegible (defaultTokens default?) = true := by
  cases h with
  | none => rfl
  | some hread => exact isLegible_cons rfl hread.isLegible

/-- A default is read as the value that it writes. -/
theorem readTokens_default (columns : List ColumnDeclaration) {c : ColumnDeclaration}
    (hnone : c.initial? = none) : readTokens ⟨columns, .constraint c⟩ (defaultTokens default?)
      = some ⟨columns, .constraint { c with initial? }⟩ := by
  cases h with
  | none =>
      rw [← hnone]
      rfl
  | some hread => exact hread.read columns c

end Columns

/-- The tokens of a column definition are read as the declaration of what it defines. -/
theorem ColumnDefinition.isReadFrom_tokens {c : ColumnDefinition} {initial? : Option Initial}
    (htype : isRun [.letters, .relation] c.type = true)
    (hinitial : Option.Rel (fun l i => Initial.IsReadFrom i l.tokens) c.default? initial?) :
    ColumnDeclaration.IsReadFrom ⟨c.name, c.type, c.isKey, c.notNull, c.isUnique, initial?⟩
      c.tokens := by
  have hwords {condition : Bool} {keywords : List String}
      (h : ∀ w ∈ keywords, isRun [.letters, .relation] w = true) :
      isLegible (if condition then words keywords else []) = true := by
    cases condition
    exacts [rfl, isLegible_words h]
  rw [c.tokens_eq]
  constructor
  · refine isLegible_append (isLegible_append (isLegible_append (isLegible_append ?_ ?_) ?_) ?_)
      (isLegible_defaultTokens hinitial)
    · exact isLegible_cons rfl (isLegible_cons htype rfl)
    · exact hwords (by decide)
    · exact hwords (by decide)
    · exact hwords (by decide)
  · intro columns
    have hhead : readTokens ⟨columns, .name⟩ [.name c.name, .word c.type]
        = some ⟨columns, .constraint ⟨c.name, c.type, false, false, false, none⟩⟩ := rfl
    rw [readTokens_append, readTokens_append, readTokens_append, readTokens_append, hhead,
      Option.bind_some, readTokens_key, Option.bind_some, readTokens_notNull, Option.bind_some,
      readTokens_unique, Option.bind_some, readTokens_default hinitial columns rfl]
    simp only [Bool.or_false]

/-! ## Reading definitions -/

/-- The columns of a table are read one by one. -/
theorem readTokens_columns {rows : List (List Token)} {declarations : List ColumnDeclaration}
    (h : List.Forall₂ (fun row c => ColumnDeclaration.IsReadFrom c row) rows declarations)
    (columns : List ColumnDeclaration) (c : ColumnDeclaration) :
    readTokens ⟨columns, .constraint c⟩ (rows.flatMap ([.comma] ++ ·) ++ [.closeBracket])
      = some ⟨columns ++ c :: declarations, .nothing⟩ := by
  induction h generalizing columns c with
  | nil => rfl
  | @cons row c' rows declarations hrow _ ih =>
      have hcomma : readTokens ⟨columns, .constraint c⟩ [.comma] = some ⟨columns ++ [c], .name⟩ := rfl
      rw [List.flatMap_cons, List.append_assoc, List.append_assoc,
        readTokens_append_of_eq hcomma, readTokens_append_of_eq (hrow.read _), ih, List.append_assoc]
      rfl

/-- **The text of a table's definition reads as the declaration of its columns.** -/
theorem readDeclaration_table {name : String} {columns : List ColumnDefinition}
    {declarations : List ColumnDeclaration} (hne : columns ≠ [])
    (h : List.Forall₂ (fun c d => ColumnDeclaration.IsReadFrom d c.tokens) columns declarations) :
    readDeclaration (Definition.table name columns).text = some (.table true name declarations) := by
  have hlegible : ∀ row ∈ columns.map ColumnDefinition.tokens, isLegible row = true := by
    intro row hrow
    obtain ⟨c, hc, rfl⟩ := List.mem_map.1 hrow
    obtain ⟨d, -, hd⟩ := h.exists_of_mem_left hc
    exact hd.isLegible
  have hread : readColumns ((commas (columns.map ColumnDefinition.tokens)
      ++ [Token.closeBracket]).flatMap Token.lexemes) = some declarations := by
    cases h with
    | nil => exact absurd rfl hne
    | @cons c d columns declarations hc hrest =>
        have hcolumns := readTokens_columns (List.forall₂_map_left_iff.2 hrest) [] d
        rw [List.map_cons, commas, separated_cons, List.append_assoc]
        show (readTokens ⟨[], .name⟩ _ >>= result?) = _
        rw [readTokens_append_of_eq (hc.read []), hcolumns]
        rfl
  have htokens : isLegible (Definition.table name columns).tokens = true := by
    refine isLegible_append (isLegible_append rfl rfl) (isLegible_cons rfl ?_)
    exact isLegible_bracketed (isLegible_separated rfl hlegible)
  rw [readDeclaration, Definition.text, lex_render htokens]
  exact congrArg (Declaration.table true name <$> ·) hread

/-- **The text of an index's definition reads as the declaration of the index.** -/
theorem readDeclaration_index {name owner : String} {columns : List String} (hne : columns ≠ []) :
    readDeclaration (Definition.index name owner columns).text
      = some (.uniqueIndex true name owner columns) := by
  have hread : readNames ((commas (columns.map fun c => [.name c])
      ++ [Token.closeBracket]).flatMap Token.lexemes) = some columns := by
    obtain ⟨c, columns, rfl⟩ := List.exists_cons_of_ne_nil hne
    rw [List.map_cons, commas, separated_cons]
    clear hne
    induction columns generalizing c with
    | nil => rfl
    | cons d columns ih => exact congrArg ((c :: ·) <$> ·) (ih d)
  have htokens : isLegible (Definition.index name owner columns).tokens = true := by
    refine isLegible_append (isLegible_append rfl rfl)
      (isLegible_append rfl (isLegible_bracketed (isLegible_separated rfl ?_)))
    intro row hrow
    obtain ⟨c, -, rfl⟩ := List.mem_map.1 hrow
    rfl
  rw [readDeclaration, Definition.text, lex_render htokens]
  exact congrArg (Declaration.uniqueIndex true name owner <$> ·) hread

end Tabula.Sql
