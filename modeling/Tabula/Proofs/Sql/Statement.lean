import Tabula.Proofs.Sql.Placeholder

/-!
# Reading statements

The text of a statement is read by the grammar of SQL. A clause begins at a keyword, which no name can be
taken for, since names are quoted. Each clause is read by itself: lists item by item between their
commas, and predicates with the precedence of SQL. Operators and directions are told by tables of the
reader's own, and placeholders take the parameters from left to right. Main statement: the text of a
statement reads back as the statement, but for a condition that may be another with the same truth
values (`readStatement_render`).
-/

namespace Tabula.Sql

open Formula (IsSound)

/-! ## What statements say -/

/-- A statement of one of the four kinds. -/
inductive Statement where
  | select (s : Select)
  | insert (s : Insert)
  | update (s : Update)
  | delete (s : Delete)

namespace Statement

/-- The tokens of a statement. -/
def tokens : Statement → List Token
  | select s => s.tokens
  | insert s => s.tokens
  | update s => s.tokens
  | delete s => s.tokens

end Statement

/-- Whether two conditions, if there are any, have the same truth value under every valuation of the
single comparisons. -/
def Condition.Agree (c d : Option Condition) : Prop :=
  Option.Rel (fun c d => ∀ valuation, c.eval valuation = d.eval valuation) c d

/-- Whether two statements are the same but for conditions that agree. -/
inductive Statement.Agree : Statement → Statement → Prop
  | select {s : Select} {condition : Option Condition} (h : Condition.Agree s.condition condition) :
    Agree (.select s) (.select { s with condition })
  | insert (s : Insert) : Agree (.insert s) (.insert s)
  | update {s : Update} {condition : Option Condition} (h : Condition.Agree s.condition condition) :
    Agree (.update s) (.update { s with condition })
  | delete {s : Delete} {condition : Option Condition} (h : Condition.Agree s.condition condition) :
    Agree (.delete s) (.delete { s with condition })

/-! ## Clauses -/

/-- The keywords that begin clauses. -/
def clauseWords : List String :=
  ["SELECT", "FROM", "JOIN", "ON", "WHERE", "ORDER", "LIMIT", "INSERT", "INTO", "VALUES", "UPDATE",
    "SET", "DELETE"]

/-- A clause: the keyword that begins it, and what follows that. -/
abbrev Clause (α : Type) := String × List α

/-- What stands before the first clause of a row of lexemes, and its clauses. -/
def clauses : List Lexeme → List Lexeme × List (Clause Lexeme)
  | [] => ([], [])
  | l :: lexemes =>
    let (body, rest) := clauses lexemes
    match l with
    | .word w => if w ∈ clauseWords then ([], (w, body) :: rest) else (l :: body, rest)
    | _ => (l :: body, rest)

/-! ## Lists -/

/-- Reads what stands between commas item by item. -/
def readItems {α : Type} (item : List Lexeme → Option α) (lexemes : List Lexeme) :
    Option (List α) :=
  (lexemes.splitOn .comma).mapM item

/-- What stands in brackets. -/
def unbracketed? : List Lexeme → Option (List Lexeme)
  | .openBracket :: lexemes =>
    if lexemes.getLast? = some .closeBracket then some lexemes.dropLast else none
  | _ => none

/-- A column of a source. -/
def ColumnRef.ofLexemes? : List Lexeme → Option ColumnRef
  | [.name source, .dot, .name column] => some ⟨source, column⟩
  | _ => none

/-- A direction by its keyword. -/
def directionOf? : String → Option Direction
  | "ASC" => some .ascending
  | "DESC" => some .descending
  | _ => none

/-- A term of an ordering. -/
def readTerm : List Lexeme → Option (ColumnRef × Direction)
  | [.name source, .dot, .name column, .word w] => (directionOf? w).map (⟨source, column⟩, ·)
  | _ => none

/-- A name by itself. -/
def readName : List Lexeme → Option String
  | [.name s] => some s
  | _ => none

/-- A placeholder by itself. -/
def readPlace : List Lexeme → Option Unit
  | [.placeholder] => some ()
  | _ => none

/-- The column that is set to a placeholder. -/
def readSetting : List Lexeme → Option String
  | [.name column, .word "=", .placeholder] => some column
  | _ => none

/-! ## The readers of clauses -/

/-- The words that lexemes begin with, and what follows them. -/
def leadingWords : List Lexeme → List String × List Lexeme
  | .word w :: lexemes => (w :: (leadingWords lexemes).1, (leadingWords lexemes).2)
  | lexemes => ([], lexemes)

/-- The step that joins a table under a name on a comparison of two columns, of which the second one is
the joined table's. -/
def JoinStep.ofLexemes? : List Lexeme → List Lexeme → Option JoinStep
  | [.name table, .word "AS", .name aliasName], .name source :: .dot :: .name column :: lexemes => do
    let method ← methodOf? (leadingWords lexemes).1
    let right ← ColumnRef.ofLexemes? (leadingWords lexemes).2
    if right.source = aliasName ∧ method.takesList = false then
      some ⟨table, aliasName, ⟨source, column⟩, method, right.column⟩
    else none
  | _, _ => none

/-- The joins that clauses begin with, and the clauses after them. -/
def readJoins : List (Clause Lexeme) → Option (List JoinStep × List (Clause Lexeme))
  | ("JOIN", joined) :: ("ON", comparison) :: clauses => do
    let step ← JoinStep.ofLexemes? joined comparison
    let (steps, clauses) ← readJoins clauses
    return (step :: steps, clauses)
  | clauses => some ([], clauses)

/-- What follows a keyword that clauses begin with, if they do, and the clauses after it. -/
def takeClause (word : String) :
    List (Clause Lexeme) → Option (List Lexeme) × List (Clause Lexeme)
  | [] => (none, [])
  | clause :: clauses =>
    if clause.1 = word then (some clause.2, clauses) else (none, clause :: clauses)

/-- The condition that clauses begin with, if there is one, the parameters that it leaves, and the
clauses after it. -/
def readCondition (values : List Value) (clauses : List (Clause Lexeme)) :
    Option (Option Condition × List Value × List (Clause Lexeme)) :=
  match takeClause "WHERE" clauses with
  | (none, clauses) => some (none, values, clauses)
  | (some predicate, clauses) => do
    let reader ← predicate.foldlM Reader.step ⟨{}, [], values, .operand⟩
    match reader.awaited, reader.enclosing with
    | .connective, [] => some (some reader.level.condition, reader.unread, clauses)
    | _, _ => none

/-- The ordering that clauses begin with, if there is one, and the clauses after it. -/
def readOrdering (clauses : List (Clause Lexeme)) :
    Option (List (ColumnRef × Direction) × List (Clause Lexeme)) :=
  match takeClause "ORDER" clauses with
  | (none, clauses) => some ([], clauses)
  | (some (.word "BY" :: terms), clauses) => (readItems readTerm terms).map (·, clauses)
  | _ => none

/-- The limit that is left to read at the end, if there is one: it takes the last parameter. -/
def readLimit : List Value → List (Clause Lexeme) → Option (Option Int64)
  | [.int n], [("LIMIT", [.placeholder])] => some (some n)
  | [], [] => some none
  | _, _ => none

/-! ## The reader of statements -/

/-- The statement that some clauses make with parameters. -/
def Statement.ofClauses? (values : List Value) : List (Clause Lexeme) → Option Statement
  | ("SELECT", columns) :: ("FROM", [.name table]) :: clauses => do
    let columns ← readItems ColumnRef.ofLexemes? columns
    let (joins, clauses) ← readJoins clauses
    let (condition, values, clauses) ← readCondition values clauses
    let (ordering, clauses) ← readOrdering clauses
    let limit ← readLimit values clauses
    return .select { columns, table, joins, condition, ordering, limit }
  | [("INSERT", []), ("INTO", [.name table, .word "DEFAULT"]), ("VALUES", [])] =>
    if values.isEmpty then some (.insert ⟨table, []⟩) else none
  | [("INSERT", []), ("INTO", .name table :: names), ("VALUES", places)] => do
    let names ← (unbracketed? names).bind (readItems readName)
    let places ← (unbracketed? places).bind (readItems readPlace)
    if names.length = values.length ∧ places.length = values.length then
      some (.insert ⟨table, names.zip values⟩)
    else none
  | ("UPDATE", [.name table]) :: ("SET", settings) :: clauses => do
    let names ← readItems readSetting settings
    let (condition, unread, clauses) ← readCondition (values.drop names.length) clauses
    if names.length ≤ values.length ∧ unread = [] ∧ clauses = [] then
      some (.update ⟨table, names.zip values, condition⟩)
    else none
  | ("DELETE", []) :: ("FROM", [.name table]) :: clauses => do
    let (condition, unread, clauses) ← readCondition values clauses
    if unread = [] ∧ clauses = [] then some (.delete ⟨table, condition⟩) else none
  | _ => none

/-- The statement that a text with parameters is. -/
def readStatement (text : String) (values : List Value) : Option Statement := do
  let lexemes ← lex text.toList
  match clauses lexemes with
  | ([], clauses) => Statement.ofClauses? values clauses
  | _ => none

/-! ## Reading lists -/

/-- Rows between commas are lexemes between commas. -/
theorem lexemes_commas (rows : List (List Token)) : (commas rows).flatMap Token.lexemes
    = [Lexeme.comma].intercalate (rows.map fun row => row.flatMap Token.lexemes) := by
  induction rows with
  | nil => rfl
  | cons row rows ih =>
      cases rows with
      | nil => simp [commas, separated, List.intercalate]
      | cons next rows =>
          simp only [commas, separated, List.map_cons, List.intercalate_cons_cons] at ih ⊢
          rw [List.flatMap_append, List.flatMap_append, ih]
          rfl

/-- A list is read if each of its rows is read as an item and has no comma in it. -/
theorem readItems_commas {α β : Type} {item : List Lexeme → Option β} {row : α → List Token}
    {f : α → β} {xs : List α} (hne : xs ≠ [])
    (hread : ∀ x ∈ xs, item ((row x).flatMap Token.lexemes) = some (f x))
    (hcomma : ∀ x ∈ xs, .comma ∉ (row x).flatMap Token.lexemes) :
    readItems item ((commas (xs.map row)).flatMap Token.lexemes) = some (xs.map f) := by
  have hsplit : ((commas (xs.map row)).flatMap Token.lexemes).splitOn .comma
      = (xs.map row).map fun row => row.flatMap Token.lexemes := by
    rw [lexemes_commas]
    refine List.splitOn_intercalate _ ?_ (by simpa using hne)
    simpa using hcomma
  rw [readItems, hsplit, List.map_map]
  clear hne hcomma hsplit
  induction xs with
  | nil => rfl
  | cons x xs ih =>
      obtain ⟨hfirst, hread⟩ := List.forall_mem_cons.1 hread
      rw [List.map_cons, List.mapM_cons, Function.comp_apply, hfirst, ih hread]
      rfl

/-- What was put in brackets is found in them. -/
theorem unbracketed?_bracketed (tokens : List Token) :
    unbracketed? ((bracketed tokens).flatMap Token.lexemes)
      = some (tokens.flatMap Token.lexemes) := by
  rw [Role.lexemes_bracketed]
  simp [unbracketed?]

/-! ## Reading clauses -/

/-- Whether no clause begins within a row of tokens. -/
def IsPlain (tokens : List Token) : Prop :=
  ∀ l ∈ tokens.flatMap Token.lexemes, ∀ w ∈ clauseWords, l ≠ .word w

instance (tokens : List Token) : Decidable (IsPlain tokens) :=
  inferInstanceAs (Decidable (∀ l ∈ tokens.flatMap Token.lexemes, ∀ w ∈ clauseWords, l ≠ .word w))

/-- Clauses one after the other. -/
def clauseTokens (rows : List (Clause Token)) : List Token :=
  rows.flatMap fun row => .word row.1 :: row.2

/-- Lexemes that begin no clause stand before what clauses follow them. -/
theorem clauses_append {lexemes : List Lexeme} (h : ∀ l ∈ lexemes, ∀ w ∈ clauseWords, l ≠ .word w)
    (rest : List Lexeme) :
    clauses (lexemes ++ rest) = (lexemes ++ (clauses rest).1, (clauses rest).2) := by
  induction lexemes with
  | nil => rfl
  | cons l lexemes ih =>
      obtain ⟨hfirst, h⟩ := List.forall_mem_cons.1 h
      rw [List.cons_append, clauses, ih h]
      cases l with
      | word w => exact if_neg fun hw => hfirst w hw rfl
      | _ => rfl

/-- **Clauses are told apart by their keywords.** -/
theorem clauses_clauseTokens {rows : List (Clause Token)} (hwords : ∀ row ∈ rows, row.1 ∈ clauseWords)
    (hplain : ∀ row ∈ rows, IsPlain row.2) :
    clauses ((clauseTokens rows).flatMap Token.lexemes)
      = ([], rows.map fun row => (row.1, row.2.flatMap Token.lexemes)) := by
  induction rows with
  | nil => rfl
  | cons row rows ih =>
      obtain ⟨hword, hwords⟩ := List.forall_mem_cons.1 hwords
      obtain ⟨hbody, hplain⟩ := List.forall_mem_cons.1 hplain
      have hlexemes : (clauseTokens (row :: rows)).flatMap Token.lexemes
          = .word row.1 :: (row.2.flatMap Token.lexemes
            ++ (clauseTokens rows).flatMap Token.lexemes) := by
        rw [clauseTokens, List.flatMap_cons, List.flatMap_append, List.flatMap_cons]
        rfl
      rw [hlexemes, clauses, clauses_append hbody, ih hwords hplain, List.append_nil]
      exact if_pos hword

/-- No clause begins within two rows if none begins within one of them. -/
theorem isPlain_append {a b : List Token} (ha : IsPlain a) (hb : IsPlain b) : IsPlain (a ++ b) := by
  unfold IsPlain
  rw [List.flatMap_append]
  exact List.forall_mem_append.2 ⟨ha, hb⟩

theorem isPlain_flatMap {α : Type} {row : α → List Token} {xs : List α}
    (h : ∀ x ∈ xs, IsPlain (row x)) : IsPlain (xs.flatMap row) := by
  induction xs with
  | nil => exact nofun
  | cons x xs ih =>
      obtain ⟨hfirst, h⟩ := List.forall_mem_cons.1 h
      rw [List.flatMap_cons]
      exact isPlain_append hfirst (ih h)

/-- Separated rows begin no clause if neither they nor what separates them does. -/
theorem isPlain_separated {separator : List Token} {rows : List (List Token)}
    (hseparator : IsPlain separator) (h : ∀ row ∈ rows, IsPlain row) :
    IsPlain (separated separator rows) := by
  cases rows with
  | nil => exact nofun
  | cons row rows =>
      obtain ⟨hfirst, h⟩ := List.forall_mem_cons.1 h
      rw [separated_cons]
      exact isPlain_append hfirst (isPlain_flatMap fun r hr => isPlain_append hseparator (h r hr))

theorem isPlain_commas {α : Type} {row : α → List Token} {xs : List α}
    (h : ∀ x ∈ xs, IsPlain (row x)) : IsPlain (commas (xs.map row)) :=
  isPlain_separated (by decide) (List.forall_mem_map.2 h)

theorem isPlain_bracketed {tokens : List Token} (h : IsPlain tokens) : IsPlain (bracketed tokens) := by
  exact isPlain_append (isPlain_append (a := [.openBracket]) (by decide) h) (by decide)

/-- Words that are no keywords of clauses begin none. -/
theorem isPlain_words {ws : List String} (h : ∀ w ∈ ws, w ∉ clauseWords) : IsPlain (words ws) := by
  intro l hl w hw
  obtain ⟨t, ht, hl⟩ := List.mem_flatMap.1 hl
  obtain ⟨v, hv, rfl⟩ := List.mem_map.1 ht
  obtain rfl := List.mem_singleton.1 hl
  rintro ⟨⟩
  exact h w hv hw

/-- Without words no clause begins. -/
theorem isPlain_of_wordless {tokens : List Token} (h : ∀ w, .word w ∉ tokens.flatMap Token.lexemes) :
    IsPlain tokens := by
  intro l hl w _
  rintro rfl
  exact h w hl

theorem isPlain_name (s : String) : IsPlain [.name s] :=
  isPlain_of_wordless (by simp [Token.lexemes])

theorem isPlain_parameter (v : Value) : IsPlain [.parameter v] :=
  isPlain_of_wordless (by simp [Token.lexemes])

/-- Columns are quoted, so that none begins a clause. -/
theorem isPlain_ref (r : ColumnRef) : IsPlain r.tokens :=
  isPlain_of_wordless (by simp [ColumnRef.tokens, Token.lexemes])

/-- No operator begins a clause. -/
theorem isPlain_operator (m : Comparison) : IsPlain (words m.operator) :=
  isPlain_words (by cases m <;> decide)

/-- No comparison begins a clause. -/
theorem isPlain_test (t : Test) : IsPlain t.tokens := by
  refine isPlain_append (isPlain_append (isPlain_ref t.column) (isPlain_operator t.method)) ?_
  cases t.operand with
  | value v => exact isPlain_parameter v
  | list vs => exact isPlain_bracketed (isPlain_commas fun v _ => isPlain_parameter v)

/-- No clause begins within a condition. -/
theorem Condition.isPlain_tokens (c : Condition) : IsPlain (tokens c) :=
  Spreads.tokens (P := IsPlain)
    ⟨by decide, by decide, by decide, isPlain_bracketed, isPlain_separated⟩ isPlain_test c

/-! ## The clauses of statements -/

/-- The clause of a condition. -/
def conditionClauses (condition : Option Condition) : List (Clause Token) :=
  condition.toList.map fun c => ("WHERE", Condition.tokens c)

/-- The clauses of a join. -/
def JoinStep.clauses (s : JoinStep) : List (Clause Token) :=
  [("JOIN", [.name s.table, .word "AS", .name s.aliasName]),
    ("ON", s.left.tokens ++ words s.method.operator ++ s.right.tokens)]

/-- The clause of an ordering. -/
def orderingClauses (terms : List (ColumnRef × Direction)) : List (Clause Token) :=
  if terms.isEmpty then []
  else [("ORDER", .word "BY" :: commas (terms.map fun (r, d) => r.tokens ++ [.word d.keyword]))]

/-- The clause of a limit. -/
def limitClauses (limit : Option Int64) : List (Clause Token) :=
  limit.toList.map fun n => ("LIMIT", [.parameter (.int n)])

/-- The clauses of a select statement. -/
def Select.clauses (s : Select) : List (Clause Token) :=
  [("SELECT", commas (s.columns.map ColumnRef.tokens)), ("FROM", [.name s.table])]
    ++ s.joins.flatMap JoinStep.clauses ++ conditionClauses s.condition
    ++ orderingClauses s.ordering ++ limitClauses s.limit

/-- The clauses of an insert statement. -/
def Insert.clauses (s : Insert) : List (Clause Token) :=
  if s.values.isEmpty then
    [("INSERT", []), ("INTO", [.name s.table, .word "DEFAULT"]), ("VALUES", [])]
  else
    [("INSERT", []),
      ("INTO", .name s.table :: bracketed (commas (s.values.map fun (column, _) => [.name column]))),
      ("VALUES", bracketed (commas (s.values.map fun (_, v) => [.parameter v])))]

/-- The clauses of an update statement. -/
def Update.clauses (s : Update) : List (Clause Token) :=
  [("UPDATE", [.name s.table]),
    ("SET", commas (s.values.map fun (column, v) => [.name column, .word "=", .parameter v]))]
    ++ conditionClauses s.condition

/-- The clauses of a delete statement. -/
def Delete.clauses (s : Delete) : List (Clause Token) :=
  [("DELETE", []), ("FROM", [.name s.table])] ++ conditionClauses s.condition

theorem clauseTokens_append (a b : List (Clause Token)) :
    clauseTokens (a ++ b) = clauseTokens a ++ clauseTokens b :=
  List.flatMap_append

/-- The clause of a condition is what it is written as. -/
theorem clauseTokens_condition (condition : Option Condition) :
    clauseTokens (conditionClauses condition) = Condition.clause condition := by
  cases condition with
  | none => rfl
  | some c => exact List.append_nil _

/-- The clauses of joins are what they are written as. -/
theorem clauseTokens_joins (joins : List JoinStep) :
    clauseTokens (joins.flatMap JoinStep.clauses) = joins.flatMap JoinStep.tokens := by
  rw [clauseTokens, List.flatMap_assoc]
  congr 1
  funext s
  simp [JoinStep.clauses, JoinStep.tokens]

/-- A select statement is its clauses one after the other. -/
theorem Select.tokens_eq (s : Select) : s.tokens = clauseTokens s.clauses := by
  rw [clauses, clauseTokens_append, clauseTokens_append, clauseTokens_append, clauseTokens_append,
    clauseTokens_condition, clauseTokens_joins]
  unfold tokens orderingClauses limitClauses
  cases s.ordering <;> cases s.limit <;> simp [clauseTokens, words]

/-- An insert statement is its clauses one after the other. -/
theorem Insert.tokens_eq (s : Insert) : s.tokens = clauseTokens s.clauses := by
  unfold tokens clauses
  cases s.values <;> simp [clauseTokens, words]

/-- An update statement is its clauses one after the other. -/
theorem Update.tokens_eq (s : Update) : s.tokens = clauseTokens s.clauses := by
  rw [clauses, clauseTokens_append, clauseTokens_condition]
  simp [tokens, clauseTokens]

/-- A delete statement is its clauses one after the other. -/
theorem Delete.tokens_eq (s : Delete) : s.tokens = clauseTokens s.clauses := by
  rw [clauses, clauseTokens_append, clauseTokens_condition]
  rfl

/-! ## Reading the clauses of statements -/

/-- A clause of tokens as one of lexemes. -/
def Clause.lexemes (row : Clause Token) : Clause Lexeme := (row.1, row.2.flatMap Token.lexemes)

/-- Whether rows are clauses: each begins at a keyword, and no other begins within it. -/
def AreClauses (rows : List (Clause Token)) : Prop :=
  ∀ row ∈ rows, row.1 ∈ clauseWords ∧ IsPlain row.2

theorem areClauses_nil : AreClauses [] := nofun

theorem areClauses_append {a b : List (Clause Token)} (ha : AreClauses a) (hb : AreClauses b) :
    AreClauses (a ++ b) :=
  List.forall_mem_append.2 ⟨ha, hb⟩

/-- A keyword and what begins no clause are one more clause. -/
theorem areClauses_cons {word : String} {body : List Token} {rows : List (Clause Token)}
    (hword : word ∈ clauseWords) (hbody : IsPlain body) (h : AreClauses rows) :
    AreClauses ((word, body) :: rows) :=
  List.forall_mem_cons.2 ⟨⟨hword, hbody⟩, h⟩

/-- A condition is one clause, or none. -/
theorem areClauses_condition (condition : Option Condition) :
    AreClauses (conditionClauses condition) := by
  intro row hrow
  obtain ⟨c, -, rfl⟩ := List.mem_map.1 hrow
  exact ⟨(by decide : "WHERE" ∈ clauseWords), Condition.isPlain_tokens c⟩

/-- No clause of a select statement is broken by its contents. -/
theorem areClauses_select (s : Select) : AreClauses s.clauses := by
  have hjoins : AreClauses (s.joins.flatMap JoinStep.clauses) := by
    intro row hrow
    obtain ⟨j, -, hrow⟩ := List.mem_flatMap.1 hrow
    have hnames : IsPlain ([.name j.table] ++ [.word "AS"] ++ [.name j.aliasName]) :=
      isPlain_append (isPlain_append (isPlain_name _) (by decide)) (isPlain_name _)
    have hcomparison := isPlain_append (isPlain_append (isPlain_ref j.left) (isPlain_operator j.method))
      (isPlain_ref j.right)
    exact areClauses_cons (by decide) hnames (areClauses_cons (by decide) hcomparison areClauses_nil) row hrow
  have hordering : AreClauses (orderingClauses s.ordering) := by
    unfold orderingClauses
    split
    · exact areClauses_nil
    · refine areClauses_cons (by decide) (isPlain_append (a := [.word "BY"]) (by decide) ?_) areClauses_nil
      refine isPlain_commas fun term _ => isPlain_append (isPlain_ref term.1) ?_
      cases term.2 <;> decide
  have hlimit : AreClauses (limitClauses s.limit) := by
    intro row hrow
    obtain ⟨n, -, rfl⟩ := List.mem_map.1 hrow
    exact ⟨(by decide : "LIMIT" ∈ clauseWords), isPlain_parameter _⟩
  have hsources := areClauses_cons (by decide : "SELECT" ∈ clauseWords)
    (isPlain_commas fun r (_ : r ∈ s.columns) => isPlain_ref r)
    (areClauses_cons (by decide : "FROM" ∈ clauseWords) (isPlain_name s.table) areClauses_nil)
  exact areClauses_append (areClauses_append (areClauses_append (areClauses_append hsources hjoins)
    (areClauses_condition _)) hordering) hlimit

/-- No clause of an insert statement is broken by its contents. -/
theorem areClauses_insert (s : Insert) : AreClauses s.clauses := by
  unfold Insert.clauses
  split
  · exact areClauses_cons (by decide) (by decide) (areClauses_cons (by decide)
      (isPlain_append (isPlain_name _) (by decide)) (areClauses_cons (by decide) (by decide) areClauses_nil))
  · have hnames := isPlain_bracketed (isPlain_commas fun entry (_ : entry ∈ s.values) =>
      isPlain_name entry.1)
    have hplaces := isPlain_bracketed (isPlain_commas fun entry (_ : entry ∈ s.values) =>
      isPlain_parameter entry.2)
    exact areClauses_cons (by decide) (by decide) (areClauses_cons (by decide)
      (isPlain_append (isPlain_name _) hnames) (areClauses_cons (by decide) hplaces areClauses_nil))

/-- No clause of an update statement is broken by its contents. -/
theorem areClauses_update (s : Update) : AreClauses s.clauses := by
  have hsettings : IsPlain
      (commas (s.values.map fun (column, v) => [.name column, .word "=", .parameter v])) :=
    isPlain_commas fun entry _ => isPlain_append
      (isPlain_append (isPlain_name entry.1) (by decide : IsPlain [.word "="]))
      (isPlain_parameter entry.2)
  exact areClauses_append (areClauses_cons (by decide) (isPlain_name _)
    (areClauses_cons (by decide) hsettings areClauses_nil)) (areClauses_condition _)

/-- No clause of a delete statement is broken by its contents. -/
theorem areClauses_delete (s : Delete) : AreClauses s.clauses :=
  areClauses_append (areClauses_cons (by decide) (by decide)
    (areClauses_cons (by decide) (isPlain_name _) areClauses_nil)) (areClauses_condition _)

/-- The text of some clauses is read clause by clause, with the values that its placeholders stand for
as parameters. -/
theorem readStatement_clauses {rows : List (Clause Token)} (h : AreClauses rows)
    {isName : String → Prop} {bindings : List (Role × Value)}
    (hsaid : Says isName (clauseTokens rows) bindings) :
    readStatement (render (clauseTokens rows)) (parameters (clauseTokens rows))
      = Statement.ofClauses? (bindings.map Prod.snd) (rows.map Clause.lexemes) := by
  have hclauses := clauses_clauseTokens (fun row hrow => (h row hrow).1) fun row hrow =>
    (h row hrow).2
  rw [(hsaid []).parameters, readStatement, lex_render (hsaid []).isLegible, Option.bind_eq_bind,
    Option.bind_some, hclauses]
  rfl

/-- The words before a column are told from it. -/
theorem leadingWords_words (ws : List String) (r : ColumnRef) :
    leadingWords ((words ws ++ r.tokens).flatMap Token.lexemes)
      = (ws, r.tokens.flatMap Token.lexemes) := by
  induction ws with
  | nil => rfl
  | cons w ws ih =>
      show (w :: (leadingWords ((words ws ++ r.tokens).flatMap Token.lexemes)).1,
        (leadingWords ((words ws ++ r.tokens).flatMap Token.lexemes)).2) = _
      rw [ih]

theorem ofLexemes?_tokens (r : ColumnRef) :
    ColumnRef.ofLexemes? (r.tokens.flatMap Token.lexemes) = some r := rfl

/-- A step is read from its two clauses. -/
theorem JoinStep.ofLexemes?_clauses {s : JoinStep} (h : s.method.takesList = false) :
    JoinStep.ofLexemes? [.name s.table, .word "AS", .name s.aliasName]
        ((s.left.tokens ++ words s.method.operator ++ s.right.tokens).flatMap Token.lexemes)
      = some s := by
  have hleft : (s.left.tokens ++ words s.method.operator ++ s.right.tokens).flatMap Token.lexemes
      = .name s.left.source :: .dot :: .name s.left.column
        :: (words s.method.operator ++ s.right.tokens).flatMap Token.lexemes := by
    rw [List.append_assoc, List.flatMap_append]
    rfl
  rw [hleft, ofLexemes?, leadingWords_words, Reader.methodOf?_operator, ofLexemes?_tokens]
  exact if_pos ⟨rfl, h⟩

/-- Joins are read step by step, up to the first clause that is none of theirs. -/
theorem readJoins_clauses {joins : List JoinStep} (h : ∀ j ∈ joins, j.method.takesList = false)
    {rest : List (Clause Token)} (hrest : ∀ row ∈ rest, row.1 ≠ "JOIN") :
    readJoins ((joins.flatMap JoinStep.clauses ++ rest).map Clause.lexemes)
      = some (joins, rest.map Clause.lexemes) := by
  induction joins with
  | nil =>
      rw [List.flatMap_nil, List.nil_append]
      cases rest with
      | nil => rfl
      | cons row rest =>
          have hrow : row.lexemes.1 ≠ "JOIN" := hrest row List.mem_cons_self
          rw [List.map_cons]
          unfold readJoins
          split
          · next heq => exact absurd (congrArg Prod.fst (List.cons.inj heq).1) hrow
          · rfl
  | cons j joins ih =>
      obtain ⟨hfirst, h⟩ := List.forall_mem_cons.1 h
      have hread := JoinStep.ofLexemes?_clauses hfirst
      have hclauses : ((j :: joins).flatMap JoinStep.clauses ++ rest).map Clause.lexemes
          = ("JOIN", [.name j.table, .word "AS", .name j.aliasName])
            :: ("ON", (j.left.tokens ++ words j.method.operator ++ j.right.tokens).flatMap
              Token.lexemes)
            :: (joins.flatMap JoinStep.clauses ++ rest).map Clause.lexemes := rfl
      rw [hclauses, readJoins, hread, ih h]
      rfl

/-- Clauses of other kinds are left for later. -/
theorem takeClause_of_ne {word : String} {rest : List (Clause Token)}
    (h : ∀ row ∈ rest, row.1 ≠ word) :
    takeClause word (rest.map Clause.lexemes) = (none, rest.map Clause.lexemes) := by
  cases rest with
  | nil => rfl
  | cons row rest => exact if_neg (h row List.mem_cons_self)

/-- A condition is read from its clause as one that agrees with it, and takes the parameters of its
own. -/
theorem readCondition_clauses {condition : Option Condition}
    (h : ∀ c ∈ condition, IsSound Test.IsShaped c) (values : List Value)
    {rest : List (Clause Token)} (hrest : ∀ row ∈ rest, row.1 ≠ "WHERE") :
    ∃ read, Condition.Agree condition read ∧
      readCondition (parameters (Condition.clause condition) ++ values)
          ((conditionClauses condition ++ rest).map Clause.lexemes)
        = some (read, values, rest.map Clause.lexemes) := by
  unfold readCondition
  cases condition with
  | none =>
      refine ⟨none, .none, ?_⟩
      rw [conditionClauses, Option.toList_none, List.map_nil, List.nil_append, takeClause_of_ne hrest]
      rfl
  | some c =>
      obtain ⟨cs, hread, heval⟩ := Condition.readsAs_tokens c (h c rfl) {} [] values
      refine ⟨some (Level.condition ⟨[], cs⟩), .some fun valuation => ?_, ?_⟩
      · rw [Condition.eval_condition, heval]
        cases c.eval valuation <;> rfl
      · show ((c.tokens.flatMap Token.lexemes).foldlM Reader.step
          ⟨{}, [], parameters c.tokens ++ values, .operand⟩ >>= _) = _
        rw [Reader.readTokens] at hread
        rw [hread]
        rfl

/-- An ordering is read term by term. -/
theorem readOrdering_clauses (terms : List (ColumnRef × Direction)) {rest : List (Clause Token)}
    (hrest : ∀ row ∈ rest, row.1 ≠ "ORDER") :
    readOrdering ((orderingClauses terms ++ rest).map Clause.lexemes)
      = some (terms, rest.map Clause.lexemes) := by
  unfold readOrdering orderingClauses
  by_cases hne : terms = []
  · subst hne
    show (match takeClause "ORDER" (rest.map Clause.lexemes) with
      | (none, clauses) => some ([], clauses)
      | (some (.word "BY" :: terms), clauses) => (readItems readTerm terms).map (·, clauses)
      | _ => none) = _
    rw [takeClause_of_ne hrest]
  · have hterms : readItems readTerm ((commas (terms.map fun (r, d) =>
        r.tokens ++ [.word d.keyword])).flatMap Token.lexemes) = some (terms.map id) := by
      refine readItems_commas hne ?_ ?_
      · rintro ⟨r, d⟩ -
        cases d <;> rfl
      · rintro ⟨r, d⟩ -
        simp [ColumnRef.tokens, Token.lexemes]
    rw [List.map_id] at hterms
    rw [if_neg (by simpa using hne)]
    show (readItems readTerm _).map _ = _
    exact hterms ▸ rfl

/-- A limit is read with the last parameter. -/
theorem readLimit_clauses (limit : Option Int64) :
    readLimit (limit.toList.map Value.int) ((limitClauses limit).map Clause.lexemes) = some limit := by
  cases limit <;> rfl

/-! ## Reading statements -/

/-- The parameters of a clause are the values that it is for. -/
theorem parameters_clause (condition : Option Condition) :
    parameters (Condition.clause condition)
      = (Condition.clauseBindings condition).map Prod.snd := by
  have hsaid : Says (fun _ => True) (Condition.clause condition)
      (Condition.clauseBindings condition) := Condition.says_clause fun _ _ _ _ => ⟨trivial, trivial⟩
  exact (hsaid []).parameters

/-- Written values are parameters in their order. -/
theorem map_snd_writtenBindings (values : List (String × Value)) :
    (writtenBindings values).map Prod.snd = values.map Prod.snd := by
  rw [writtenBindings, List.map_map]
  rfl

/-- A limit is the last clause. -/
theorem word_eq_of_mem_limit {limit : Option Int64} {row : Clause Token}
    (h : row ∈ limitClauses limit) : row.1 = "LIMIT" := by
  obtain ⟨n, -, rfl⟩ := List.mem_map.1 h
  rfl

/-- After the condition of a select statement stand its ordering and its limit. -/
theorem word_mem_of_mem_ordering {terms : List (ColumnRef × Direction)} {limit : Option Int64}
    {row : Clause Token} (h : row ∈ orderingClauses terms ++ limitClauses limit) :
    row.1 ∈ ["ORDER", "LIMIT"] := by
  rcases List.mem_append.1 h with h | h
  · unfold orderingClauses at h
    split at h
    · cases h
    · obtain rfl := List.mem_singleton.1 h
      exact List.mem_cons_self
  · rw [word_eq_of_mem_limit h]
    decide

/-- After the joins of a select statement stand its condition, its ordering and its limit. -/
theorem word_mem_of_mem_condition {condition : Option Condition}
    {terms : List (ColumnRef × Direction)} {limit : Option Int64} {row : Clause Token}
    (h : row ∈ conditionClauses condition ++ (orderingClauses terms ++ limitClauses limit)) :
    row.1 ∈ ["WHERE", "ORDER", "LIMIT"] := by
  rcases List.mem_append.1 h with h | h
  · obtain ⟨c, -, rfl⟩ := List.mem_map.1 h
    exact List.mem_cons_self
  · exact List.mem_cons_of_mem _ (word_mem_of_mem_ordering h)

/-- The text of a select statement is read. -/
theorem readStatement_select {s : Select} (hcolumns : s.columns ≠ [])
    (hjoins : ∀ j ∈ s.joins, j.method.takesList = false)
    (hcondition : ∀ c ∈ s.condition, IsSound Test.IsShaped c) :
    ∃ condition, Condition.Agree s.condition condition ∧
      readStatement (render s.tokens) (parameters s.tokens)
        = some (.select { s with condition }) := by
  have hsaid : Says (fun _ => True) s.tokens (Condition.clauseBindings s.condition
      ++ s.limit.toList.map fun n => (.limit, .int n)) :=
    says_select trivial (fun _ _ => ⟨trivial, trivial⟩)
      (fun _ _ => ⟨trivial, ⟨trivial, trivial⟩, ⟨trivial, trivial⟩⟩)
      (fun _ _ _ _ => ⟨trivial, trivial⟩) fun _ _ => ⟨trivial, trivial⟩
  rw [s.tokens_eq] at hsaid
  have hlist : readItems ColumnRef.ofLexemes?
      ((commas (s.columns.map ColumnRef.tokens)).flatMap Token.lexemes) = some (s.columns.map id) := by
    refine readItems_commas hcolumns (fun r _ => rfl) fun r _ => ?_
    simp [ColumnRef.tokens, Token.lexemes]
  rw [List.map_id] at hlist
  have hclauses : s.clauses.map Clause.lexemes
      = ("SELECT", (commas (s.columns.map ColumnRef.tokens)).flatMap Token.lexemes)
        :: ("FROM", [.name s.table]) :: (s.joins.flatMap JoinStep.clauses
          ++ (conditionClauses s.condition
            ++ (orderingClauses s.ordering ++ limitClauses s.limit))).map Clause.lexemes := by
    simp [Select.clauses, Clause.lexemes, Token.lexemes]
  have hvalues : (Condition.clauseBindings s.condition
      ++ s.limit.toList.map fun n => (Role.limit, Value.int n)).map Prod.snd
      = parameters (Condition.clause s.condition) ++ s.limit.toList.map Value.int := by
    rw [parameters_clause, List.map_append, List.map_map]
    rfl
  -- The clauses of one kind are followed by those of later kinds only.
  have hne {words : List String} {word : String} (h : word ∉ words) {row : Clause Token}
      (hrow : row.1 ∈ words) : row.1 ≠ word := fun heq => h (heq ▸ hrow)
  have hordering : ∀ row ∈ orderingClauses s.ordering ++ limitClauses s.limit, row.1 ≠ "WHERE" :=
    fun row hrow => hne (by decide) (word_mem_of_mem_ordering hrow)
  obtain ⟨condition, hagree, hread⟩ := readCondition_clauses hcondition
    (s.limit.toList.map Value.int) hordering
  refine ⟨condition, hagree, ?_⟩
  rw [s.tokens_eq, readStatement_clauses (areClauses_select s) hsaid, hclauses, hvalues,
    Statement.ofClauses?, hlist, readJoins_clauses hjoins fun row hrow =>
      hne (by decide) (word_mem_of_mem_condition hrow)]
  simp only [Option.bind_eq_bind, Option.bind_some, hread]
  rw [readOrdering_clauses _ fun row hrow => by simp [word_eq_of_mem_limit hrow]]
  simp only [Option.bind_some, readLimit_clauses]
  rfl

/-- The text of an insert statement is read. -/
theorem readStatement_insert (s : Insert) :
    readStatement (render s.tokens) (parameters s.tokens) = some (.insert s) := by
  have hsaid : Says (fun _ => True) s.tokens (writtenBindings s.values) :=
    says_insert trivial fun _ _ => trivial
  rw [s.tokens_eq] at hsaid
  rw [s.tokens_eq, readStatement_clauses (areClauses_insert s) hsaid, map_snd_writtenBindings]
  obtain ⟨table, values⟩ := s
  by_cases hne : values = []
  · subst hne
    rfl
  · have hnames : readItems readName ((commas (values.map fun (column, _) =>
        [.name column])).flatMap Token.lexemes) = some (values.map Prod.fst) :=
      readItems_commas hne (fun _ _ => rfl) fun _ _ => by simp [Token.lexemes]
    have hplaces : readItems readPlace ((commas (values.map fun (_, v) =>
        [.parameter v])).flatMap Token.lexemes) = some (values.map fun _ => ()) :=
      readItems_commas hne (fun _ _ => rfl) fun _ _ => by simp [Token.lexemes]
    have hclauses : (Insert.clauses ⟨table, values⟩).map Clause.lexemes
        = [("INSERT", []),
          ("INTO", .name table :: (bracketed (commas (values.map fun (column, _) =>
            [.name column]))).flatMap Token.lexemes),
          ("VALUES", (bracketed (commas (values.map fun (_, v) =>
            [.parameter v]))).flatMap Token.lexemes)] := by
      rw [Insert.clauses, if_neg (by simpa using hne)]
      rfl
    have hzip : (values.map Prod.fst).zip (values.map Prod.snd) = values := by
      rw [List.zip_map', List.map_id']
    rw [hclauses, Role.lexemes_bracketed]
    show ((unbracketed? _).bind (readItems readName) >>= fun names =>
      (unbracketed? _).bind (readItems readPlace) >>= _) = _
    rw [← Role.lexemes_bracketed, unbracketed?_bracketed, unbracketed?_bracketed, Option.bind_some,
      Option.bind_some, hnames, hplaces]
    show (if _ then some (Statement.insert ⟨table, _⟩) else none) = _
    rw [if_pos (by simp), hzip]

/-- The text of an update statement is read. -/
theorem readStatement_update {s : Update} (hvalues : s.values ≠ [])
    (hcondition : ∀ c ∈ s.condition, IsSound Test.IsShaped c) :
    ∃ condition, Condition.Agree s.condition condition ∧
      readStatement (render s.tokens) (parameters s.tokens)
        = some (.update { s with condition }) := by
  have hsaid : Says (fun _ => True) s.tokens
      (writtenBindings s.values ++ Condition.clauseBindings s.condition) :=
    says_update trivial (fun _ _ => trivial) fun _ _ _ _ => ⟨trivial, trivial⟩
  rw [s.tokens_eq] at hsaid
  obtain ⟨table, values, condition⟩ := s
  have hsettings : readItems readSetting ((commas (values.map fun (column, v) =>
      [.name column, .word "=", .parameter v])).flatMap Token.lexemes) = some (values.map Prod.fst) :=
    readItems_commas hvalues (fun _ _ => rfl) fun _ _ => by simp [Token.lexemes]
  have hclauses : (Update.clauses ⟨table, values, condition⟩).map Clause.lexemes
      = ("UPDATE", [.name table])
        :: ("SET", (commas (values.map fun (column, v) =>
          [.name column, .word "=", .parameter v])).flatMap Token.lexemes)
        :: (conditionClauses condition ++ []).map Clause.lexemes := by
    rw [List.append_nil]
    rfl
  have hdrop : (values.map Prod.snd ++ parameters (Condition.clause condition)).drop
      (values.map Prod.fst).length = parameters (Condition.clause condition) ++ [] := by
    rw [List.append_nil, List.drop_left' (by simp)]
  have hzip : (values.map Prod.fst).zip
      (values.map Prod.snd ++ parameters (Condition.clause condition)) = values := by
    rw [← List.append_nil (values.map Prod.fst), List.zip_append (by simp), List.zip_nil_left,
      List.append_nil, List.zip_map', List.map_id']
  obtain ⟨read, hagree, hread⟩ := readCondition_clauses hcondition [] (List.forall_mem_nil _)
  refine ⟨read, hagree, ?_⟩
  rw [Update.tokens_eq, readStatement_clauses (areClauses_update _) hsaid, List.map_append,
    map_snd_writtenBindings, ← parameters_clause, hclauses, Statement.ofClauses?, hsettings,
    Option.bind_eq_bind, Option.bind_some, hdrop, hread]
  show (if _ then some (Statement.update ⟨table, _, read⟩) else none) = _
  rw [if_pos (by simp), hzip]

/-- The text of a delete statement is read. -/
theorem readStatement_delete {s : Delete} (hcondition : ∀ c ∈ s.condition, IsSound Test.IsShaped c) :
    ∃ condition, Condition.Agree s.condition condition ∧
      readStatement (render s.tokens) (parameters s.tokens)
        = some (.delete { s with condition }) := by
  have hsaid : Says (fun _ => True) s.tokens (Condition.clauseBindings s.condition) :=
    says_delete trivial fun _ _ _ _ => ⟨trivial, trivial⟩
  rw [s.tokens_eq] at hsaid
  obtain ⟨read, hagree, hread⟩ := readCondition_clauses hcondition [] (List.forall_mem_nil _)
  refine ⟨read, hagree, ?_⟩
  have hclauses : s.clauses.map Clause.lexemes = ("DELETE", []) :: ("FROM", [.name s.table])
      :: (conditionClauses s.condition ++ []).map Clause.lexemes := by
    rw [List.append_nil]
    rfl
  rw [s.tokens_eq, readStatement_clauses (areClauses_delete _) hsaid, hclauses, ← parameters_clause,
    ← List.append_nil (parameters _), Statement.ofClauses?, hread]
  rfl

/-- Whether a statement can be read at all: it names a column to select or to set, joins compare with
no list, and conditions compare with values of the right number. -/
def Statement.IsShaped : Statement → Prop
  | .select s => s.columns ≠ [] ∧ (∀ j ∈ s.joins, j.method.takesList = false)
    ∧ ∀ c ∈ s.condition, IsSound Test.IsShaped c
  | .insert _ => True
  | .update s => s.values ≠ [] ∧ ∀ c ∈ s.condition, IsSound Test.IsShaped c
  | .delete s => ∀ c ∈ s.condition, IsSound Test.IsShaped c

/-- **The text of a statement reads back as the statement.** -/
theorem readStatement_render {s : Statement} (h : s.IsShaped) :
    ∃ read, s.Agree read
      ∧ readStatement (render s.tokens) (parameters s.tokens) = some read := by
  cases s with
  | select s =>
      obtain ⟨hcolumns, hjoins, hcondition⟩ := h
      obtain ⟨condition, hagree, hread⟩ := readStatement_select hcolumns hjoins hcondition
      exact ⟨_, .select hagree, hread⟩
  | insert s => exact ⟨_, .insert s, readStatement_insert s⟩
  | update s =>
      obtain ⟨condition, hagree, hread⟩ := readStatement_update h.1 h.2
      exact ⟨_, .update hagree, hread⟩
  | delete s =>
      obtain ⟨condition, hagree, hread⟩ := readStatement_delete h
      exact ⟨_, .delete hagree, hread⟩

/-- An update statement with a list before a single value, as it is written by hand. -/
example : readStatement ("UPDATE \"t\" SET \"a\" = ?, \"b\" = ? "
      ++ "WHERE \"t\".\"id\" NOT IN (?, ?) OR \"t\".\"id\" <= ?")
    [.bool true, .null, .int 3, .int 4, .int 1]
    = some (.update {
        table := "t"
        values := [("a", .bool true), ("b", .null)]
        condition := some (.any [.all [.atom ⟨⟨"t", "id"⟩, .notMember, .list [.int 3, .int 4]⟩],
          .all [.atom ⟨⟨"t", "id"⟩, .le, .value (.int 1)⟩]]) }) := by
  cbv

end Tabula.Sql
