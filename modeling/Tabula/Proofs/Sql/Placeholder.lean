import Tabula.Proofs.Sql.Predicate

/-!
# Placeholders

What the value of a placeholder is for is told by the lexemes before it: the operator of a
comparison and its column, the column that is set, the column at the same position of an insertion's
list, or the limit. Main statements: the text of a condition has a placeholder for every comparand,
in the order in which they stand in the tree (`says_tokens`), and the texts of the four statements
have one for every value that they write, compare with or are limited by (`says_select`,
`says_insert`, `says_update`, `says_delete`).
-/

namespace Tabula.Sql

/-! ## Roles -/

/-- What the value of a placeholder is for. -/
inductive Role where
  /-- It is written to a column. -/
  | column (name : String)
  /-- A column is compared with it. -/
  | comparand (column : ColumnRef) (operator : List String)
  | limit
  deriving DecidableEq, Repr

namespace Role

/-- Goes back over the items of a list before a place, counts them, and gives what stands before
the list. What stands before a place is given from the place on backwards. -/
def skipItems : List Lexeme → Nat × List Lexeme
  | .placeholder :: before => ((skipItems before).1 + 1, (skipItems before).2)
  | .comma :: before => skipItems before
  | .openBracket :: before => skipItems before
  | before => (0, before)

/-- The names of a list that ends at a place, with those that were read before. -/
def listedNames (read : List String) : List Lexeme → List String
  | .name c :: .comma :: before => listedNames (c :: read) before
  | .name c :: .openBracket :: _ => c :: read
  | _ => []

/-- The comparison that a value ends, with the words of its operator that were read before. -/
def comparison? (operator : List String) : List Lexeme → Option Role
  | .word w :: before => comparison? (w :: operator) before
  | .name c :: .dot :: .name s :: _ => some (.comparand ⟨s, c⟩ operator)
  | _ => none

/-- The role of the item of a list that has some items before it. -/
def ofItem? (n : Nat) : List Lexeme → Option Role
  | .word "LIMIT" :: _ => some .limit
  | .word "=" :: .name c :: _ => some (.column c)
  | .word "VALUES" :: .closeBracket :: before => (listedNames [] before)[n]?.map .column
  | before => comparison? [] before

/-- The role of a placeholder by what stands before it. -/
def after? (before : List Lexeme) : Option Role :=
  ofItem? (skipItems before).1 (skipItems before).2

/-- The roles of the placeholders in a row of lexemes, by what stands before the row. -/
def among (before : List Lexeme) : List Lexeme → List (Option Role)
  | [] => []
  | .placeholder :: lexemes => after? before :: among (.placeholder :: before) lexemes
  | l :: lexemes => among (l :: before) lexemes

/-- The roles of a text in two parts are found by its parts, the first one standing before the
second. -/
theorem among_append (before a b : List Lexeme) :
    among before (a ++ b) = among before a ++ among (a.reverse ++ before) b := by
  induction a generalizing before with
  | nil => rfl
  | cons l a ih => cases l <;> simp [among, ih]

/-- Without placeholders there are no roles. -/
theorem among_eq_nil {lexemes : List Lexeme} (h : .placeholder ∉ lexemes) (before : List Lexeme) :
    among before lexemes = [] := by
  induction lexemes generalizing before with
  | nil => rfl
  | cons l lexemes ih =>
      rw [List.mem_cons, not_or] at h
      cases l with
      | placeholder => exact absurd rfl h.1
      | _ => exact ih h.2 _

/-- The items of a list after its first one. -/
theorem among_items {before anchor : List Lexeme} {n : Nat} (h : skipItems before = (n, anchor))
    (values : List Value) :
    among before ((values.flatMap fun v => [.comma, .parameter v]).flatMap Token.lexemes)
      = (List.range' n values.length).map (ofItem? · anchor) := by
  induction values generalizing before n with
  | nil => rfl
  | cons v values ih =>
      have hnext : skipItems (.placeholder :: .comma :: before) = (n + 1, anchor) := by
        simp [skipItems, h]
      have hrole : after? (.comma :: before) = ofItem? n anchor := by
        simp [after?, skipItems, h]
      rw [List.flatMap_cons, List.flatMap_append, among_append, List.length_cons, List.range'_succ,
        List.map_cons, ← ih hnext, ← hrole]
      rfl

theorem lexemes_bracketed (tokens : List Token) :
    (bracketed tokens).flatMap Token.lexemes
      = .openBracket :: (tokens.flatMap Token.lexemes ++ [.closeBracket]) := by
  rw [bracketed, List.cons_append, List.flatMap_cons, List.flatMap_append]
  rfl

/-- A list of values has a placeholder for each item. -/
theorem among_list {before : List Lexeme} (h : skipItems before = (0, before))
    (values : List Value) :
    among before ((bracketed (commas (values.map fun v => [.parameter v]))).flatMap Token.lexemes)
      = (List.range' 0 values.length).map (ofItem? · before) := by
  have hopened : skipItems (.openBracket :: before) = (0, before) := by simp [skipItems, h]
  have hclosed : ∀ before, among before [.closeBracket] = [] := fun _ => rfl
  rw [lexemes_bracketed, among.eq_3 _ _ _ (by simp), among_append, hclosed, List.append_nil]
  cases values with
  | nil => rfl
  | cons v values =>
      have hnext : skipItems (.placeholder :: .openBracket :: before) = (1, before) := by
        simp [skipItems, h]
      have hrole : after? (.openBracket :: before) = ofItem? 0 before := by
        simp [after?, hopened]
      rw [commas, List.map_cons, separated_cons, List.flatMap_map, List.flatMap_append,
        among_append, List.length_cons, List.range'_succ, List.map_cons, ← hrole,
        ← among_items hnext]
      rfl

/-- An item of the values of an insertion is written to the column at its position. -/
theorem ofItem?_values (n : Nat) (first : String) (names : List String) (before : List Lexeme) :
    ofItem? n (.word "VALUES" ::
        (((bracketed (commas ((first :: names).map fun c => [.name c]))).flatMap
          Token.lexemes).reverse ++ before))
      = (first :: names)[n]?.map .column := by
  have hback : ∀ (read rest : List String),
      listedNames read ((rest.flatMap fun c => [.name c, .comma]) ++
        .name first :: .openBracket :: before) = first :: (rest.reverse ++ read) := by
    intro read rest
    induction rest generalizing read with
    | nil => rfl
    | cons c rest ih =>
        rw [List.flatMap_cons, List.reverse_cons, List.append_assoc, List.append_assoc]
        exact ih (c :: read)
  have hlexemes : (commas ((first :: names).map fun c => [.name c])).flatMap Token.lexemes
      = .name first :: names.flatMap fun c => [.comma, .name c] := by
    rw [commas, List.map_cons, separated_cons, List.flatMap_map, List.flatMap_append,
      List.flatMap_assoc]
    rfl
  have hreverse : (names.flatMap fun c => [Lexeme.comma, .name c]).reverse
      = names.reverse.flatMap fun c => [.name c, .comma] := by
    rw [List.reverse_flatMap]
    rfl
  have hread := hback [] names.reverse
  rw [List.reverse_reverse, List.append_nil] at hread
  rw [lexemes_bracketed, hlexemes, List.cons_append, List.reverse_cons, List.reverse_cons,
    List.reverse_append, hreverse, ← hread]
  simp [ofItem?]

end Role

/-! ## Rows of tokens -/

/-- The keywords and operators of statements. -/
def keywords : List String :=
  ["SELECT", "FROM", "JOIN", "AS", "ON", "WHERE", "AND", "OR", "ORDER", "BY", "ASC", "DESC",
    "LIMIT", "INSERT", "INTO", "DEFAULT", "VALUES", "UPDATE", "SET", "DELETE", "=", "IS", "NOT",
    "IN", "LIKE", "<", "<=", ">", ">="]

/-- Whether a lexeme may stand in a statement that has names of some kind: apart from names there
are keywords and operators, the literal one, placeholders and punctuation. -/
def Lexeme.IsKnown (isName : String → Prop) : Lexeme → Prop
  | .name s => isName s
  | .word w => w ∈ keywords
  | .number n => n = "1"
  | .text _ => False
  | .placeholder | .openBracket | .closeBracket | .comma | .dot => True

/-- Whether a row of tokens that stands after some lexemes can be read back, has names of some kind
and nothing else that is not fixed, and has placeholders in certain roles, with certain values as
their parameters. -/
structure SaysAfter (isName : String → Prop) (before : List Lexeme) (tokens : List Token)
    (bindings : List (Role × Value)) : Prop where
  isLegible : isLegible tokens = true
  isKnown : ∀ l ∈ tokens.flatMap Token.lexemes, l.IsKnown isName
  parameters : parameters tokens = bindings.map Prod.snd
  roles : Role.among before (tokens.flatMap Token.lexemes)
    = bindings.map fun binding => some binding.1

/-- Whether a row of tokens has placeholders in certain roles wherever it stands. -/
def Says (isName : String → Prop) (tokens : List Token) (bindings : List (Role × Value)) : Prop :=
  ∀ before, SaysAfter isName before tokens bindings

variable {isName : String → Prop} {before : List Lexeme}

/-- What is said in two parts is said after the first and then after both. -/
theorem SaysAfter.append {a b : List Token} {as bs : List (Role × Value)}
    (ha : SaysAfter isName before a as)
    (hb : SaysAfter isName ((a.flatMap Token.lexemes).reverse ++ before) b bs) :
    SaysAfter isName before (a ++ b) (as ++ bs) where
  isLegible := isLegible_append ha.isLegible hb.isLegible
  isKnown := by
    intro l hl
    rw [List.flatMap_append, List.mem_append] at hl
    exact hl.elim (ha.isKnown l) (hb.isKnown l)
  parameters := by rw [parameters_append, ha.parameters, hb.parameters, List.map_append]
  roles := by rw [List.flatMap_append, Role.among_append, ha.roles, hb.roles, List.map_append]

namespace Says

variable {α : Type}

/-- The empty text says nothing. -/
theorem nil : Says isName [] [] := fun _ => ⟨rfl, by simp, rfl, rfl⟩

/-- A text in two parts says what both say. -/
theorem append {a b : List Token} {as bs : List (Role × Value)} (ha : Says isName a as)
    (hb : Says isName b bs) : Says isName (a ++ b) (as ++ bs) :=
  fun before => (ha before).append (hb _)

/-- Rows say what each of them says. -/
theorem flatMap {xs : List α} {row : α → List Token} {bindings : α → List (Role × Value)}
    (h : ∀ x ∈ xs, Says isName (row x) (bindings x)) :
    Says isName (xs.flatMap row) (xs.flatMap bindings) := by
  induction xs with
  | nil => exact nil
  | cons x xs ih =>
      rw [List.flatMap_cons, List.flatMap_cons]
      exact (h x List.mem_cons_self).append (ih fun y hy => h y (List.mem_cons_of_mem _ hy))

/-- Separators that say nothing leave what the rows say. -/
theorem separated {separator : List Token} (hseparator : Says isName separator []) {xs : List α}
    {row : α → List Token} {bindings : α → List (Role × Value)}
    (h : ∀ x ∈ xs, Says isName (row x) (bindings x)) :
    Says isName (separated separator (xs.map row)) (xs.flatMap bindings) := by
  cases xs with
  | nil => exact nil
  | cons x xs =>
      rw [List.map_cons, separated_cons, List.flatMap_map, List.flatMap_cons]
      refine (h x List.mem_cons_self).append (flatMap fun y hy => ?_)
      exact hseparator.append (h y (List.mem_cons_of_mem _ hy))

/-- A token without a placeholder says nothing. -/
theorem single {t : Token} (hlegible : t.isLegible = true)
    (hknown : ∀ l ∈ t.lexemes, l ≠ .placeholder ∧ l.IsKnown isName) : Says isName [t] [] := by
  have hsilent : .placeholder ∉ t.lexemes := fun hmem => (hknown _ hmem).1 rfl
  intro before
  refine ⟨isLegible_cons hlegible rfl, ?_, ?_, ?_⟩
  · intro l hl
    rw [List.flatMap_singleton] at hl
    exact (hknown l hl).2
  · cases t with
    | parameter v => exact absurd List.mem_cons_self hsilent
    | _ => rfl
  · rw [List.flatMap_singleton]
    exact Role.among_eq_nil hsilent before

/-- A keyword stands for no value. -/
theorem word {w : String} (h : w ∈ keywords) : Says isName [.word w] [] := by
  have hrun : ∀ w ∈ keywords, isRun [.letters, .relation] w = true := by decide
  exact single (hrun w h) (by simpa [Token.lexemes, Lexeme.IsKnown] using h)

/-- A name stands for no value. -/
theorem name {s : String} (h : isName s) : Says isName [.name s] [] :=
  single rfl (by simpa [Token.lexemes, Lexeme.IsKnown] using h)

theorem comma : Says isName [.comma] [] := single rfl (by simp [Token.lexemes, Lexeme.IsKnown])

/-- Rows that say nothing say nothing with commas between them. -/
theorem commas {xs : List α} {row : α → List Token} (h : ∀ x ∈ xs, Says isName (row x) []) :
    Says isName (commas (xs.map row)) [] := by
  have hall := separated comma h
  rwa [List.flatMap_eq_nil_iff.2 fun _ _ => rfl] at hall

theorem openBracket : Says isName [.openBracket] [] :=
  single rfl (by simp [Token.lexemes, Lexeme.IsKnown])

theorem closeBracket : Says isName [.closeBracket] [] :=
  single rfl (by simp [Token.lexemes, Lexeme.IsKnown])

/-- Keywords stand for no values. -/
theorem words {ws : List String} (h : ∀ w ∈ ws, w ∈ keywords) : Says isName (words ws) [] := by
  induction ws with
  | nil => exact nil
  | cons w ws ih =>
      exact (word (h w List.mem_cons_self)).append (ih fun v hv => h v (List.mem_cons_of_mem _ hv))

/-- In brackets a text says what it says without. -/
theorem bracketed {tokens : List Token} {bindings : List (Role × Value)}
    (h : Says isName tokens bindings) : Says isName (bracketed tokens) bindings := by
  have hall := (openBracket.append h).append closeBracket
  rwa [List.nil_append, List.append_nil] at hall

end Says

/-- A value has the role that what stands before it gives it. -/
theorem saysAfter_parameter {role : Role} (h : Role.after? before = some role) (v : Value) :
    SaysAfter isName before [.parameter v] [(role, v)] := by
  refine ⟨rfl, by simp [Token.lexemes, Lexeme.IsKnown], rfl, ?_⟩
  show [Role.after? before] = [some role]
  rw [h]

/-- A token of separated rows belongs to a separator or to a row. -/
theorem mem_separated {separator : List Token} {rows : List (List Token)} {t : Token}
    (h : t ∈ separated separator rows) : t ∈ separator ∨ ∃ row ∈ rows, t ∈ row := by
  cases rows with
  | nil => cases h
  | cons row rows =>
      rw [separated_cons, List.mem_append, List.mem_flatMap] at h
      rcases h with h | ⟨other, hother, h⟩
      · exact .inr ⟨row, List.mem_cons_self, h⟩
      · exact (List.mem_append.1 h).imp_right fun h => ⟨other, List.mem_cons_of_mem _ hother, h⟩

/-- A list of values, each of which has the role of an item at its place. -/
theorem saysAfter_list (h : Role.skipItems before = (0, before)) {bindings : List (Role × Value)}
    (hroles : ∀ i binding, bindings[i]? = some binding →
      Role.ofItem? i before = some binding.1) :
    SaysAfter isName before (bracketed (commas (bindings.map fun b => [.parameter b.2])))
      bindings := by
  have hvalues : bindings.map (fun b => [Token.parameter b.2])
      = (bindings.map Prod.snd).map fun v => [.parameter v] := by
    rw [List.map_map]
    rfl
  rw [hvalues]
  refine ⟨?_, ?_, Operand.parameters_tokens_list _, ?_⟩
  · refine isLegible_bracketed (isLegible_separated rfl fun row hrow => ?_)
    obtain ⟨v, -, rfl⟩ := List.mem_map.1 hrow
    rfl
  · intro l hl
    rw [Role.lexemes_bracketed, List.mem_cons, List.mem_append] at hl
    rcases hl with rfl | hl | hl
    · trivial
    · obtain ⟨t, ht, hl⟩ := List.mem_flatMap.1 hl
      rcases mem_separated ht with ht | ⟨row, hrow, ht⟩
      · obtain rfl := List.mem_singleton.1 ht
        obtain rfl := List.mem_singleton.1 hl
        trivial
      · obtain ⟨v, -, rfl⟩ := List.mem_map.1 hrow
        obtain rfl := List.mem_singleton.1 ht
        obtain rfl := List.mem_singleton.1 hl
        trivial
    · obtain rfl := List.mem_singleton.1 hl
      trivial
  -- The items are numbered from 0, since none stands before the list.
  · rw [Role.among_list h, List.length_map]
    apply List.ext_getElem?
    intro i
    rw [List.getElem?_map, List.getElem?_map]
    cases hbinding : bindings[i]? with
    | none =>
        have hlength : bindings.length ≤ i := List.getElem?_eq_none_iff.1 hbinding
        rw [List.getElem?_eq_none (by simpa using hlength)]
        rfl
    | some binding =>
        have hlength : i < bindings.length := (List.getElem?_eq_some_iff.1 hbinding).1
        rw [List.getElem?_range' hlength, Option.map_some, Option.map_some, Nat.zero_add,
          Nat.one_mul, hroles i binding hbinding]

/-! ## Columns and comparisons -/

/-- Whether a column and its source have names of some kind. -/
def ColumnRef.IsNamed (isName : String → Prop) (r : ColumnRef) : Prop :=
  isName r.source ∧ isName r.column

/-- The values that a comparison compares with. -/
def Operand.values : Operand → List Value
  | .value v => [v]
  | .list vs => vs

/-- What the values of a comparison are for. -/
def Test.bindings (t : Test) : List (Role × Value) :=
  t.operand.values.map fun v => (.comparand t.column t.method.operator, v)

/-- A column stands for no value. -/
theorem says_ref {r : ColumnRef} (h : r.IsNamed isName) : Says isName r.tokens [] := by
  intro before
  refine ⟨rfl, ?_, rfl, rfl⟩
  intro l hl
  have hcases : l = .name r.source ∨ l = .dot ∨ l = .name r.column := by
    simpa [ColumnRef.tokens, Token.lexemes] using hl
  rcases hcases with rfl | rfl | rfl
  · exact h.1
  · trivial
  · exact h.2

/-- Operators are made of keywords. -/
theorem operator_subset (m : Comparison) : ∀ w ∈ m.operator, w ∈ keywords := by
  cases m <;> decide

/-- The values after an operator are compared with the column before it. -/
theorem Role.ofItem?_operator (r : ColumnRef) (m : Comparison) (before : List Lexeme) :
    let read := ((r.tokens ++ words m.operator).flatMap Token.lexemes).reverse ++ before
    skipItems read = (0, read) ∧ ∀ n, ofItem? n read = some (.comparand r m.operator) := by
  cases m <;> exact ⟨rfl, fun _ => rfl⟩

/-- A comparison says that its values are compared with its column. -/
theorem says_test {t : Test} (h : t.column.IsNamed isName) : Says isName t.tokens t.bindings := by
  intro before
  obtain ⟨hskip, hrole⟩ := Role.ofItem?_operator t.column t.method before
  have hstart : SaysAfter isName before (t.column.tokens ++ words t.method.operator) [] :=
    (says_ref h).append (.words (operator_subset t.method)) before
  refine hstart.append ?_
  cases t.operand with
  | value v =>
      refine saysAfter_parameter ?_ v
      rw [Role.after?, hskip]
      exact hrole 0
  | list values =>
      have htokens : (Operand.list values).tokens = bracketed (commas ((values.map fun v =>
          (Role.comparand t.column t.method.operator, v)).map fun b => [.parameter b.2])) := by
        rw [List.map_map]
        rfl
      rw [htokens]
      refine saysAfter_list hskip fun i binding hbinding => ?_
      obtain ⟨v, -, rfl⟩ := List.mem_map.1 (List.mem_of_getElem? hbinding)
      exact hrole i

/-! ## Conditions -/

namespace Condition

/-- What the values of a condition are for: those of its comparisons, in the order in which they
stand in the tree. -/
def bindings (c : Condition) : List (Role × Value) := c.atoms.flatMap Test.bindings

/-- What the values of an optional condition are for. -/
def clauseBindings : Option Condition → List (Role × Value)
  | none => []
  | some c => c.bindings

/-- The values of some conditions are those of each of them. -/
theorem bindings_of_parts (parts : List Condition) :
    (Formula.atomsOf parts).flatMap Test.bindings = parts.flatMap bindings := by
  induction parts with
  | nil => rfl
  | cons part parts ih =>
      rw [Formula.atomsOf, List.flatMap_append, ih, List.flatMap_cons]
      rfl

theorem groups_eq_map (parts : List Condition) :
    groups parts = parts.map fun part => grouped part (tokens part) := by
  induction parts with
  | nil => rfl
  | cons part parts ih => rw [groups, ih, List.map_cons]

/-- A condition that may be bracketed says what it says without. -/
theorem says_grouped {c : Condition} {ts : List Token} {bindings : List (Role × Value)}
    (h : Says isName ts bindings) : Says isName (grouped c ts) bindings := by
  unfold grouped
  split
  · exact h.bracketed
  · exact h

/-- Grouped parts with a connective between them say what the parts say. -/
theorem says_connected {connective : String} (hword : connective ∈ keywords)
    {parts : List Condition} (h : ∀ part ∈ parts, Says isName (tokens part) part.bindings) :
    Says isName (separated [.word connective] (groups parts)) (parts.flatMap bindings) := by
  rw [groups_eq_map]
  exact .separated (.word hword) fun part hpart => says_grouped (h part hpart)

mutual

/-- The text of a condition has a placeholder for each of its comparands, in order. -/
theorem says_tokens : (c : Condition) → (∀ t ∈ c.atoms, t.column.IsNamed isName) →
    Says isName (tokens c) c.bindings
  | .atom t, h => by
    have ht : Says isName t.tokens t.bindings := says_test (h t List.mem_cons_self)
    rw [tokens, bindings, Formula.atoms, List.flatMap_singleton]
    exact ht
  | .all [], _ => by
    rw [tokens]
    exact .single (by decide) (by simp [Token.lexemes, Lexeme.IsKnown])
  | .all [part], h => by
    rw [tokens, bindings, Formula.atoms, bindings_of_parts, List.flatMap_singleton]
    exact says_tokens part fun t ht => h t (List.mem_append_left _ ht)
  | .all (part :: other :: parts), h => by
    rw [tokens, bindings, Formula.atoms, bindings_of_parts]
    · exact says_connected (by decide) (says_parts (part :: other :: parts) h)
    · simp
  | .any parts, h => by
    rw [tokens, bindings, Formula.atoms, bindings_of_parts]
    exact (says_connected (by decide) (says_parts parts h)).bracketed

/-- The parts of a condition say what they are for. -/
theorem says_parts : (parts : List Condition) →
    (∀ t ∈ Formula.atomsOf parts, t.column.IsNamed isName) →
    ∀ part ∈ parts, Says isName (tokens part) part.bindings
  | [], _, part, hpart => by cases hpart
  | first :: parts, h, part, hpart => by
    rw [Formula.atomsOf] at h
    rcases List.mem_cons.1 hpart with heq | hpart
    · rw [heq]
      exact says_tokens first fun t ht => h t (List.mem_append_left _ ht)
    · exact says_parts parts (fun t ht => h t (List.mem_append_right _ ht)) part hpart

end

/-- A clause says what its condition is for. -/
theorem says_clause {c : Option Condition}
    (h : ∀ part ∈ c, ∀ t ∈ part.atoms, t.column.IsNamed isName) :
    Says isName (clause c) (clauseBindings c) := by
  cases c with
  | none => exact .nil
  | some c => exact (Says.word (by decide)).append (says_tokens c (h c rfl))

end Condition

/-! ## Statements -/

/-- What the values of a row are for. -/
def writtenBindings (values : RowValues) : List (Role × Value) :=
  values.map fun (column, v) => (.column column, v)

/-- A join stands for no value. -/
theorem says_step {s : JoinStep} (htable : isName s.table) (hleft : s.left.IsNamed isName)
    (hright : s.right.IsNamed isName) : Says isName s.tokens [] := by
  have hnames : Says isName [.word "JOIN", .name s.table, .word "AS", .name s.aliasName, .word "ON"]
      [] :=
    (((Says.word (by decide)).append (.name htable)).append (.word (by decide))).append
      ((Says.name hright.1).append (.word (by decide)))
  exact ((hnames.append (says_ref hleft)).append (.words (operator_subset s.method))).append
    (says_ref hright)

/-- The text of a select statement has placeholders for the comparands of its condition, then for
its limit. -/
theorem says_select {s : Select} (htable : isName s.table)
    (hcolumns : ∀ r ∈ s.columns, r.IsNamed isName)
    (hjoins : ∀ j ∈ s.joins, isName j.table ∧ j.left.IsNamed isName ∧ j.right.IsNamed isName)
    (hcondition : ∀ c ∈ s.condition, ∀ t ∈ c.atoms, t.column.IsNamed isName)
    (hordering : ∀ term ∈ s.ordering, term.1.IsNamed isName) :
    Says isName s.tokens (Condition.clauseBindings s.condition
      ++ s.limit.toList.map fun n => (.limit, .int n)) := by
  have hlist : Says isName (commas (s.columns.map ColumnRef.tokens)) [] :=
    .commas fun r hr => says_ref (hcolumns r hr)
  have hsteps : Says isName (s.joins.flatMap JoinStep.tokens) [] := by
    have hall := Says.flatMap fun j hj =>
      says_step (hjoins j hj).1 (hjoins j hj).2.1 (hjoins j hj).2.2
    rwa [List.flatMap_eq_nil_iff.2 fun _ _ => rfl] at hall
  have hterms : Says isName
      (commas (s.ordering.map fun term => term.1.tokens ++ [.word term.2.keyword])) [] := by
    refine .commas fun term hterm => (says_ref (hordering term hterm)).append (.word ?_)
    cases term.2 <;> decide
  have hfrom : Says isName [.word "FROM", .name s.table] [] :=
    (Says.word (by decide)).append (.name htable)
  have hordered : ∀ rows : List (List Token), Says isName (commas rows) [] →
      Says isName (if rows.isEmpty then [] else words ["ORDER", "BY"] ++ commas rows) [] := by
    intro rows hrows
    split
    · exact .nil
    · exact (Says.words (by decide)).append hrows
  have hsources : Says isName ([.word "SELECT"] ++ commas (s.columns.map ColumnRef.tokens)
      ++ [.word "FROM", .name s.table] ++ s.joins.flatMap JoinStep.tokens) [] :=
    (((Says.word (by decide)).append hlist).append hfrom).append hsteps
  have hread := (hsources.append (Condition.says_clause hcondition)).append (hordered _ hterms)
  rw [List.nil_append, List.append_nil] at hread
  refine hread.append ?_
  cases s.limit with
  | none => exact .nil
  | some n =>
      intro before
      exact ((Says.word (by decide)) before).append (saysAfter_parameter rfl _)

/-- The text of an insert statement has a placeholder for the value of each of its columns. -/
theorem says_insert {s : Insert} (htable : isName s.table)
    (hcolumns : ∀ entry ∈ s.values, isName entry.1) :
    Says isName s.tokens (writtenBindings s.values) := by
  have hnames : Says isName [.word "INSERT", .word "INTO", .name s.table] [] :=
    ((Says.word (by decide)).append (.word (by decide))).append (.name htable)
  refine hnames.append ?_
  cases hvalues : s.values with
  | nil => exact .words (by decide)
  | cons entry values =>
      have hcolumnList : Says isName
          (bracketed (commas ((entry :: values).map fun (column, _) => [.name column]))) [] :=
        (Says.commas fun e he => .name (hcolumns e (by rwa [hvalues]))).bracketed
      have hstart := hcolumnList.append (Says.word (by decide : "VALUES" ∈ keywords))
      intro before
      refine (hstart before).append ?_
      rw [List.flatMap_append, List.reverse_append, List.append_assoc]
      have htokens : (entry :: values).map (fun (_, v) => [Token.parameter v])
          = (writtenBindings (entry :: values)).map fun b => [.parameter b.2] := by
        rw [writtenBindings, List.map_map]
        rfl
      rw [htokens]
      -- The value at a position is for the column at that position of the list before it.
      refine saysAfter_list rfl fun i binding hbinding => ?_
      have hcolumns_map : (entry :: values).map (fun (column, _) => [Token.name column])
          = (entry.1 :: values.map Prod.fst).map fun c => [.name c] := by
        rw [List.map_cons, List.map_cons, List.map_map]
        rfl
      rw [hcolumns_map]
      refine (Role.ofItem?_values i entry.1 (values.map Prod.fst) before).trans ?_
      rw [← List.map_cons, List.getElem?_map, Option.map_map]
      rw [writtenBindings, List.getElem?_map] at hbinding
      obtain ⟨e, he, rfl⟩ := Option.map_eq_some_iff.1 hbinding
      rw [he]
      rfl

/-- The text of an update statement has placeholders for the values that are set, then for the
comparands of its condition. -/
theorem says_update {s : Update} (htable : isName s.table)
    (hcolumns : ∀ entry ∈ s.values, isName entry.1)
    (hcondition : ∀ c ∈ s.condition, ∀ t ∈ c.atoms, t.column.IsNamed isName) :
    Says isName s.tokens (writtenBindings s.values ++ Condition.clauseBindings s.condition) := by
  have hnames : Says isName [.word "UPDATE", .name s.table, .word "SET"] [] :=
    ((Says.word (by decide)).append (.name htable)).append (.word (by decide))
  have hset : Says isName
      (commas (s.values.map fun (column, v) => [.name column, .word "=", .parameter v]))
      (writtenBindings s.values) := by
    have hassign : ∀ entry ∈ s.values, Says isName
        [.name entry.1, .word "=", .parameter entry.2] [(.column entry.1, entry.2)] := by
      intro entry hentry before
      have htarget : Says isName [.name entry.1, .word "="] [] :=
        (Says.name (hcolumns entry hentry)).append (.word (by decide))
      exact (htarget before).append (saysAfter_parameter rfl entry.2)
    have hall := Says.separated .comma hassign
    rwa [← List.map_eq_flatMap] at hall
  exact (hnames.append hset).append (Condition.says_clause hcondition)

/-- Values that are set come before those that columns are compared with. -/
example :
    (lex "UPDATE \"T\" SET \"a\" = ?, \"b\" = ? WHERE \"T\".\"c\" NOT IN (?, ?)".toList).map
        (Role.among [])
      = some [some (.column "a"), some (.column "b"), some (.comparand ⟨"T", "c"⟩ ["NOT", "IN"]),
          some (.comparand ⟨"T", "c"⟩ ["NOT", "IN"])] := by
  cbv

/-- A delete statement says what its condition is for. -/
theorem says_delete {s : Delete} (htable : isName s.table)
    (hcondition : ∀ c ∈ s.condition, ∀ t ∈ c.atoms, t.column.IsNamed isName) :
    Says isName s.tokens (Condition.clauseBindings s.condition) := by
  have hnames : Says isName [.word "DELETE", .word "FROM", .name s.table] [] :=
    ((Says.word (by decide)).append (.word (by decide))).append (.name htable)
  exact hnames.append (Condition.says_clause hcondition)

end Tabula.Sql
