import Tabula.Proofs.Logic.Formula
import Tabula.Proofs.Sql.Lexeme
import Tabula.Sql.Statement

/-!
# Reading predicates

The text of a predicate is read with the precedence of SQL: a comparison binds closer than `AND`,
`AND` closer than `OR`, brackets group, and placeholders take the parameters from left to right.
The reader goes over the lexemes once. Main statement: the text of a condition reads back as a
condition with the same truth value under every assignment of truth values to the single
comparisons (`readPredicate_render`).
-/

namespace Tabula.Sql

/-! ## The reader -/

/-- What has been read between two brackets: the disjuncts that are complete, and the conjuncts of
the one that is being read. -/
structure Level where
  disjuncts : List Condition := []
  conjuncts : List Condition := []

/-- What a level says. -/
def Level.condition (l : Level) : Condition := .any (l.disjuncts ++ [.all l.conjuncts])

/-- A level with one more conjunct. -/
def Level.push (l : Level) (c : Condition) : Level := { l with conjuncts := l.conjuncts ++ [c] }

/-- A level that goes on with a new disjunct. -/
def Level.split (l : Level) : Level := ⟨l.disjuncts ++ [.all l.conjuncts], []⟩

/-- What the reader waits for. -/
inductive Awaited where
  | operand
  | dot (source : String)
  | column (source : String)
  /-- The rest of an operator, or what the column is compared with. -/
  | operator (r : ColumnRef) (words : List String)
  /-- A value of a list, or the end of an empty one. -/
  | item (r : ColumnRef) (method : Comparison) (values : List Value)
  /-- A comma, or the end of a list. -/
  | separator (r : ColumnRef) (method : Comparison) (values : List Value)
  /-- `AND`, `OR`, or the end of a level. -/
  | connective

/-- A reader in the middle of a predicate. -/
structure Reader where
  level : Level
  /-- The levels around it, the innermost first. -/
  enclosing : List Level
  /-- The parameters that are left. -/
  unread : List Value
  awaited : Awaited

/-- The comparison that an operator of SQL makes, by its words. -/
def methodOf? : List String → Option Comparison
  | ["IS"] => some .eq
  | ["IS", "NOT"] => some .ne
  | ["IN"] => some .member
  | ["NOT", "IN"] => some .notMember
  | ["LIKE"] => some .like
  | ["NOT", "LIKE"] => some .unlike
  | ["<"] => some .lt
  | ["<="] => some .le
  | [">"] => some .gt
  | [">="] => some .ge
  | _ => none

namespace Reader

/-- A reader that has read an operand. -/
def take (s : Reader) (c : Condition) : Reader :=
  { s with level := s.level.push c, awaited := .connective }

/-- The next parameter. -/
def next? (s : Reader) : Option (Value × Reader) :=
  match s.unread with
  | [] => none
  | v :: vs => some (v, { s with unread := vs })

/-- A reader that has read one more lexeme. -/
def step (s : Reader) (l : Lexeme) : Option Reader :=
  match s.awaited, l with
  | .operand, .openBracket => some { s with level := {}, enclosing := s.level :: s.enclosing }
  | .operand, .number "1" => some (s.take (.all []))
  | .operand, .name source => some { s with awaited := .dot source }
  | .dot source, .dot => some { s with awaited := .column source }
  | .column source, .name column => some { s with awaited := .operator ⟨source, column⟩ [] }
  | .operator r words, .word w => some { s with awaited := .operator r (words ++ [w]) }
  | .operator r words, .placeholder => do
    let method ← methodOf? words
    let (v, s) ← s.next?
    if method.takesList then none else some (s.take (.atom ⟨r, method, .value v⟩))
  | .operator r words, .openBracket => do
    let method ← methodOf? words
    if method.takesList then some { s with awaited := .item r method [] } else none
  | .item r method values, .placeholder => do
    let (v, s) ← s.next?
    some { s with awaited := .separator r method (values ++ [v]) }
  | .item r method [], .closeBracket => some (s.take (.atom ⟨r, method, .list []⟩))
  | .separator r method values, .comma => some { s with awaited := .item r method values }
  | .separator r method values, .closeBracket => some (s.take (.atom ⟨r, method, .list values⟩))
  | .connective, .word "AND" => some { s with awaited := .operand }
  | .connective, .word "OR" => some { s with level := s.level.split, awaited := .operand }
  | .connective, .closeBracket =>
    match s.enclosing with
    | [] => none
    | l :: enclosing => some { s with level := l.push s.level.condition, enclosing }
  | _, _ => none

/-- What a reader has read, if that is a whole predicate that leaves no parameter. -/
def result? (s : Reader) : Option Condition :=
  match s.awaited, s.enclosing, s.unread with
  | .connective, [], [] => some s.level.condition
  | _, _, _ => none

/-- A reader that has read a row of tokens. -/
def readTokens (s : Reader) (tokens : List Token) : Option Reader :=
  (tokens.flatMap Token.lexemes).foldlM step s

end Reader

/-- The predicate that a text with parameters is. -/
def readPredicate (text : String) (parameters : List Value) : Option Condition := do
  let lexemes ← lex text.toList
  let reader ← lexemes.foldlM Reader.step ⟨{}, [], parameters, .operand⟩
  reader.result?

/-! ## Reading comparisons -/

namespace Reader

variable (l : Level) (outer : List Level) (vs : List Value)

/-- A text in two parts is read one part after the other. -/
theorem readTokens_append (s : Reader) (a b : List Token) :
    s.readTokens (a ++ b) = (s.readTokens a).bind fun s => s.readTokens b := by
  rw [readTokens, List.flatMap_append, List.foldlM_append]
  rfl

theorem readTokens_cons (s : Reader) (t : Token) (tokens : List Token) :
    s.readTokens (t :: tokens) = (s.readTokens [t]).bind fun s => s.readTokens tokens :=
  readTokens_append s [t] tokens

/-- Each comparison is told from the words of its operator. -/
@[simp] theorem methodOf?_operator (m : Comparison) : methodOf? m.operator = some m := by
  cases m <;> rfl

/-- A column is read as what is compared. -/
theorem readTokens_ref (r : ColumnRef) :
    readTokens ⟨l, outer, vs, .operand⟩ r.tokens = some ⟨l, outer, vs, .operator r []⟩ := rfl

/-- The words of an operator are read one by one. -/
theorem readTokens_words (r : ColumnRef) (keywords before : List String) :
    readTokens ⟨l, outer, vs, .operator r before⟩ (words keywords)
      = some ⟨l, outer, vs, .operator r (before ++ keywords)⟩ := by
  induction keywords generalizing before with
  | nil => simp [words, readTokens]
  | cons w ws ih =>
    have hstep : readTokens ⟨l, outer, vs, .operator r before⟩ [.word w]
        = some ⟨l, outer, vs, .operator r (before ++ [w])⟩ := rfl
    rw [words, List.map_cons, readTokens_cons, hstep, ← words]
    simpa using ih (before ++ [w])

/-- The values of a list that follow its first one. -/
theorem readTokens_items (r : ColumnRef) (m : Comparison) (values before : List Value) :
    readTokens ⟨l, outer, values ++ vs, .separator r m before⟩
        (values.flatMap fun v => [.comma, .parameter v])
      = some ⟨l, outer, vs, .separator r m (before ++ values)⟩ := by
  induction values generalizing before with
  | nil => simp [readTokens]
  | cons v values ih =>
    have hstep : readTokens ⟨l, outer, v :: values ++ vs, .separator r m before⟩
        [.comma, .parameter v]
          = some ⟨l, outer, values ++ vs, .separator r m (before ++ [v])⟩ := rfl
    rw [List.flatMap_cons, readTokens_append, hstep]
    simpa using ih (before ++ [v])

/-- A list of values is read as the operand of its operator. -/
theorem readTokens_list (r : ColumnRef) {m : Comparison} (hm : m.takesList = true)
    (values : List Value) :
    readTokens ⟨l, outer, values ++ vs, .operator r m.operator⟩ (Operand.list values).tokens
      = some ⟨l.push (.atom ⟨r, m, .list values⟩), outer, vs, .connective⟩ := by
  have hopen : readTokens ⟨l, outer, values ++ vs, .operator r m.operator⟩ [.openBracket]
      = some ⟨l, outer, values ++ vs, .item r m []⟩ := by
    simp [readTokens, Token.lexemes, step, hm]
  rw [Operand.tokens, bracketed, List.cons_append, readTokens_cons, hopen, Option.bind_some,
    readTokens_append]
  cases values with
  | nil => rfl
  | cons v values =>
    have hfirst : readTokens ⟨l, outer, v :: values ++ vs, .item r m []⟩ [.parameter v]
        = some ⟨l, outer, values ++ vs, .separator r m [v]⟩ := rfl
    rw [commas, List.map_cons, separated_cons, readTokens_append, hfirst, Option.bind_some,
      List.flatMap_map]
    have hrest := readTokens_items l outer vs r m values [v]
    simp only [List.cons_append, List.nil_append] at hrest ⊢
    rw [hrest]
    rfl

/-- A single value is read as the operand of its operator. -/
theorem readTokens_value (r : ColumnRef) {m : Comparison} (hm : m.takesList = false) (v : Value) :
    readTokens ⟨l, outer, v :: vs, .operator r m.operator⟩ (Operand.value v).tokens
      = some ⟨l.push (.atom ⟨r, m, .value v⟩), outer, vs, .connective⟩ := by
  simp [readTokens, Operand.tokens, Token.lexemes, step, next?, take, hm]

end Reader

/-- Whether a comparison has the operand that its method takes. -/
def Test.IsShaped (t : Test) : Prop :=
  match t.operand with
  | .list _ => t.method.takesList = true
  | .value _ => t.method.takesList = false

@[simp] theorem parameters_words (keywords : List String) : parameters (words keywords) = [] := by
  induction keywords with
  | nil => rfl
  | cons w ws ih => exact ih

@[simp] theorem parameters_bracketed (tokens : List Token) :
    parameters (bracketed tokens) = parameters tokens := by
  rw [bracketed, parameters_append]
  exact List.append_nil _

/-- The parameters of rows are those of each row. -/
theorem parameters_flatMap {α : Type} (f : α → List Token) (xs : List α) :
    parameters (xs.flatMap f) = xs.flatMap fun x => parameters (f x) := by
  induction xs with
  | nil => rfl
  | cons x xs ih => simp [ih]

/-- Separators without parameters leave the parameters of the rows. -/
theorem parameters_separated {separator : List Token} (h : parameters separator = [])
    (rows : List (List Token)) :
    parameters (separated separator rows) = rows.flatMap parameters := by
  cases rows with
  | nil => rfl
  | cons row rows => simp [separated_cons, parameters_flatMap, h]

/-- The parameters of a list are its values. -/
theorem Operand.parameters_tokens_list (values : List Value) :
    parameters (Operand.list values).tokens = values := by
  rw [Operand.tokens, parameters_bracketed, commas, parameters_separated rfl, List.flatMap_map]
  exact List.flatMap_singleton' values

/-- The parameters of a comparison are those of its operand. -/
theorem Test.parameters_tokens (t : Test) : parameters t.tokens = parameters t.operand.tokens := by
  rw [Test.tokens, parameters_append, parameters_append, parameters_words]
  rfl

/-- A comparison is read as one operand. -/
theorem Reader.readTokens_test (l : Level) (outer : List Level) (vs : List Value) {t : Test}
    (ht : t.IsShaped) :
    readTokens ⟨l, outer, parameters t.tokens ++ vs, .operand⟩ t.tokens
      = some ⟨l.push (.atom t), outer, vs, .connective⟩ := by
  obtain ⟨r, m, operand⟩ := t
  rw [Test.parameters_tokens, Test.tokens, readTokens_append, readTokens_append, readTokens_ref,
    Option.bind_some, readTokens_words, Option.bind_some, List.nil_append]
  cases operand with
  | list values =>
    rw [Operand.parameters_tokens_list]
    exact readTokens_list l outer vs r ht values
  | value v => exact readTokens_value l outer vs r ht v

/-! ## Reading conditions -/

namespace Condition

open Formula (IsSound AreSound)

/-- Reading a condition at the beginning of an operand adds conjuncts that say as much. -/
def ReadsAs (c : Condition) (tokens : List Token) : Prop :=
  ∀ (l : Level) (outer : List Level) (vs : List Value), ∃ cs : List Condition,
    Reader.readTokens ⟨l, outer, parameters tokens ++ vs, .operand⟩ tokens
      = some ⟨⟨l.disjuncts, l.conjuncts ++ cs⟩, outer, vs, .connective⟩
    ∧ ∀ valuation, Formula.evalAll valuation cs = c.eval valuation

/-- What has been read at a level is a disjunction, whose last part is still open. -/
theorem eval_condition (l : Level) (valuation : Test → Truth) :
    l.condition.eval valuation
      = (Formula.evalAny valuation l.disjuncts).or (Formula.evalAll valuation l.conjuncts) := by
  simp [Level.condition, Formula.eval, Formula.evalAny, Formula.evalAny_append]

/-- A comparison is read as itself. -/
theorem readsAs_atom {t : Test} (h : t.IsShaped) : ReadsAs (.atom t) t.tokens := by
  intro l outer vs
  refine ⟨[.atom t], Reader.readTokens_test l outer vs h, ?_⟩
  intro valuation
  simp [Formula.evalAll]

/-- The literal one is read as the empty conjunction. -/
theorem readsAs_one : ReadsAs (.all []) [.number "1"] := by
  intro l outer vs
  exact ⟨[.all []], rfl, by simp [Formula.evalAll, Formula.eval]⟩

/-- What is read in brackets becomes one operand. -/
theorem readsAs_bracketed {c : Condition} {ts : List Token}
    (h : ∀ (outer : List Level) (vs : List Value), ∃ l : Level,
      Reader.readTokens ⟨{}, outer, parameters ts ++ vs, .operand⟩ ts
        = some ⟨l, outer, vs, .connective⟩
      ∧ ∀ valuation, l.condition.eval valuation = c.eval valuation) :
    ReadsAs c (bracketed ts) := by
  intro l outer vs
  obtain ⟨inner, hread, heval⟩ := h (l :: outer) vs
  refine ⟨[inner.condition], ?_, ?_⟩
  · have hopen : Reader.readTokens ⟨l, outer, parameters ts ++ vs, .operand⟩ [.openBracket]
        = some ⟨{}, l :: outer, parameters ts ++ vs, .operand⟩ := rfl
    rw [parameters_bracketed, bracketed, List.cons_append, Reader.readTokens_cons, hopen,
      Option.bind_some, Reader.readTokens_append, hread]
    rfl
  · intro valuation
    simp [Formula.evalAll, heval]

/-- Brackets around a conjunction do not change what is read. -/
theorem ReadsAs.grouped {c : Condition} {ts : List Token} (h : ReadsAs c ts) :
    ReadsAs c (grouped c ts) := by
  unfold Condition.grouped
  split
  · next parts =>
      refine readsAs_bracketed fun outer vs => ?_
      obtain ⟨cs, hread, heval⟩ := h {} outer vs
      refine ⟨⟨[], cs⟩, hread, fun valuation => ?_⟩
      simp [eval_condition, Formula.evalAny, heval]
  · exact h

/-- Rows of tokens that read as some conditions. -/
inductive ReadAs : List Condition → List (List Token) → Prop where
  | nil : ReadAs [] []
  | cons {part : Condition} {row : List Token} {parts : List Condition} {rows : List (List Token)} :
    ReadsAs part row → ReadAs parts rows → ReadAs (part :: parts) (row :: rows)

/-- Conjuncts read one after the other. -/
theorem readTokens_and {parts : List Condition} {rows : List (List Token)} (h : ReadAs parts rows)
    (l : Level) (outer : List Level) (vs : List Value) : ∃ cs : List Condition,
      Reader.readTokens ⟨l, outer, rows.flatMap parameters ++ vs, .connective⟩
          (rows.flatMap ([.word "AND"] ++ ·))
        = some ⟨⟨l.disjuncts, l.conjuncts ++ cs⟩, outer, vs, .connective⟩
      ∧ ∀ valuation, Formula.evalAll valuation cs = Formula.evalAll valuation parts := by
  induction h generalizing l with
  | nil => exact ⟨[], by simp [Reader.readTokens], fun _ => rfl⟩
  | @cons part row parts rows hpart _ ih =>
    obtain ⟨cs, hread, heval⟩ := hpart l outer (rows.flatMap parameters ++ vs)
    obtain ⟨ds, hrest, hrests⟩ := ih ⟨l.disjuncts, l.conjuncts ++ cs⟩
    refine ⟨cs ++ ds, ?_, ?_⟩
    · have hand : Reader.readTokens
          ⟨l, outer, parameters row ++ (rows.flatMap parameters ++ vs), .connective⟩ [.word "AND"]
            = some ⟨l, outer, parameters row ++ (rows.flatMap parameters ++ vs), .operand⟩ := rfl
      rw [List.flatMap_cons, List.flatMap_cons, List.append_assoc, List.append_assoc,
        Reader.readTokens_append, hand, Option.bind_some, Reader.readTokens_append, hread,
        Option.bind_some, hrest]
      simp
    · intro valuation
      simp [Formula.evalAll_append, heval, hrests, Formula.evalAll]

/-- Disjuncts read one after the other. -/
theorem readTokens_or {parts : List Condition} {rows : List (List Token)} (h : ReadAs parts rows)
    (l : Level) (outer : List Level) (vs : List Value) : ∃ l' : Level,
      Reader.readTokens ⟨l, outer, rows.flatMap parameters ++ vs, .connective⟩
          (rows.flatMap ([.word "OR"] ++ ·))
        = some ⟨l', outer, vs, .connective⟩
      ∧ ∀ valuation, l'.condition.eval valuation
          = (l.condition.eval valuation).or (Formula.evalAny valuation parts) := by
  induction h generalizing l with
  | nil => exact ⟨l, by simp [Reader.readTokens], fun v => by simp [Formula.evalAny]⟩
  | @cons part row parts rows hpart _ ih =>
    obtain ⟨cs, hread, heval⟩ := hpart l.split outer (rows.flatMap parameters ++ vs)
    obtain ⟨l', hrest, hrests⟩ := ih ⟨l.split.disjuncts, l.split.conjuncts ++ cs⟩
    refine ⟨l', ?_, ?_⟩
    · have hor : Reader.readTokens
          ⟨l, outer, parameters row ++ (rows.flatMap parameters ++ vs), .connective⟩ [.word "OR"]
            = some ⟨l.split, outer, parameters row ++ (rows.flatMap parameters ++ vs), .operand⟩ :=
        rfl
      rw [List.flatMap_cons, List.flatMap_cons, List.append_assoc, List.append_assoc,
        Reader.readTokens_append, hor, Option.bind_some, Reader.readTokens_append, hread,
        Option.bind_some, hrest]
    · intro valuation
      rw [hrests]
      simp [eval_condition, Level.split, Formula.evalAny, Formula.evalAny_append, Formula.eval,
        heval, Truth.or_assoc]

/-- Some conjuncts with `AND` between them. -/
theorem ReadAs.conjunction {parts : List Condition} {rows : List (List Token)}
    (h : ReadAs parts rows) (hne : parts ≠ []) :
    ReadsAs (.all parts) (separated [.word "AND"] rows) := by
  intro l outer vs
  cases h with
  | nil => exact absurd rfl hne
  | @cons part row parts rows hpart hparts =>
    obtain ⟨cs, hread, heval⟩ := hpart l outer (rows.flatMap parameters ++ vs)
    obtain ⟨ds, hrest, hrests⟩ := readTokens_and hparts ⟨l.disjuncts, l.conjuncts ++ cs⟩ outer vs
    refine ⟨cs ++ ds, ?_, ?_⟩
    · rw [parameters_separated rfl, separated_cons, List.flatMap_cons, List.append_assoc,
        Reader.readTokens_append, hread, Option.bind_some, hrest]
      simp
    · intro valuation
      simp [Formula.evalAll_append, Formula.eval, Formula.evalAll, heval, hrests]

/-- Some disjuncts with `OR` between them, in brackets. -/
theorem ReadAs.disjunction {parts : List Condition} {rows : List (List Token)}
    (h : ReadAs parts rows) (hne : parts ≠ []) :
    ReadsAs (.any parts) (bracketed (separated [.word "OR"] rows)) := by
  refine readsAs_bracketed fun outer vs => ?_
  cases h with
  | nil => exact absurd rfl hne
  | @cons part row parts rows hpart hparts =>
    obtain ⟨cs, hread, heval⟩ := hpart {} outer (rows.flatMap parameters ++ vs)
    obtain ⟨l', hrest, hrests⟩ := readTokens_or hparts ⟨[], [] ++ cs⟩ outer vs
    refine ⟨l', ?_, ?_⟩
    · rw [parameters_separated rfl, separated_cons, List.flatMap_cons, List.append_assoc,
        Reader.readTokens_append, hread, Option.bind_some, hrest]
    · intro valuation
      rw [hrests]
      simp [eval_condition, Formula.evalAny, Formula.eval, heval]

mutual

/-- The tokens of a shaped condition read as that condition. -/
theorem readsAs_tokens : (c : Condition) → IsSound Test.IsShaped c → ReadsAs c (tokens c)
  | .atom t, h => by
    simp only [IsSound] at h
    simpa only [tokens] using readsAs_atom h
  | .all [], _ => by simpa only [tokens] using readsAs_one
  | .all [part], h => by
    simp only [IsSound, AreSound, and_true] at h
    intro l outer vs
    obtain ⟨cs, hread, heval⟩ := readsAs_tokens part h l outer vs
    refine ⟨cs, by simpa only [tokens] using hread, fun valuation => ?_⟩
    simp [Formula.eval, Formula.evalAll, heval]
  | .all (part :: other :: parts), h => by
    simp only [IsSound] at h
    have hgroups := readAs_groups (part :: other :: parts) h
    simpa only [tokens] using hgroups.conjunction (by simp)
  | .any parts, h => by
    simp only [IsSound] at h
    simpa only [tokens] using (readAs_groups parts h.2).disjunction h.1

/-- The groups of shaped conditions read as these conditions. -/
theorem readAs_groups : (parts : List Condition) → AreSound Test.IsShaped parts →
    ReadAs parts (groups parts)
  | [], _ => by simpa only [groups] using ReadAs.nil
  | part :: parts, h => by
    simp only [AreSound] at h
    rw [groups]
    exact .cons (readsAs_tokens part h.1).grouped (readAs_groups parts h.2)

end

/-! ## Legibility -/

/-- The words of operators are words or signs of relations. -/
theorem isRun_operator (m : Comparison) : ∀ w ∈ m.operator, isRun [.letters, .relation] w = true := by
  cases m <;> decide

/-- A comparison is legible. -/
theorem isLegible_test (t : Test) : isLegible t.tokens = true := by
  have hoperator : isLegible (words t.method.operator) = true :=
    isLegible_words (isRun_operator t.method)
  refine isLegible_append (isLegible_append rfl hoperator) ?_
  cases t.operand with
  | value v => rfl
  | list values =>
    refine isLegible_bracketed (isLegible_separated rfl fun row hrow => ?_)
    obtain ⟨v, -, rfl⟩ := List.mem_map.1 hrow
    rfl

/-- Whether what holds of the tokens of comparisons holds of those of conditions, too. -/
structure Spreads (P : List Token → Prop) : Prop where
  one : P [.number "1"]
  and : P [.word "AND"]
  or : P [.word "OR"]
  bracketed : ∀ {ts : List Token}, P ts → P (bracketed ts)
  separated : ∀ {separator : List Token} {rows : List (List Token)}, P separator →
    (∀ row ∈ rows, P row) → P (separated separator rows)

/-- What spreads from parts to conditions holds of a condition that may be bracketed. -/
theorem Spreads.grouped {P : List Token → Prop} (h : Spreads P) {c : Condition} {ts : List Token}
    (hts : P ts) : P (grouped c ts) := by
  unfold Condition.grouped
  split
  · exact h.bracketed hts
  · exact hts

mutual

/-- What spreads holds of the tokens of every condition if it does of those of every comparison. -/
theorem Spreads.tokens {P : List Token → Prop} (h : Spreads P) (htest : ∀ t : Test, P t.tokens) :
    (c : Condition) → P (tokens c)
  | .atom t => by simpa only [Condition.tokens] using htest t
  | .all [] => by simpa only [Condition.tokens] using h.one
  | .all [part] => by simpa only [Condition.tokens] using h.tokens htest part
  | .all (part :: other :: parts) => by
    simp only [Condition.tokens]
    exact h.separated h.and (h.groups htest (part :: other :: parts))
  | .any parts => by
    simp only [Condition.tokens]
    exact h.bracketed (h.separated h.or (h.groups htest parts))

/-- It holds of the parts of every condition. -/
theorem Spreads.groups {P : List Token → Prop} (h : Spreads P) (htest : ∀ t : Test, P t.tokens) :
    (parts : List Condition) → ∀ row ∈ groups parts, P row
  | [], row, hrow => by simp [Condition.groups] at hrow
  | part :: parts, row, hrow => by
    simp only [Condition.groups, List.mem_cons] at hrow
    rcases hrow with rfl | hrow
    · exact h.grouped (h.tokens htest part)
    · exact h.groups htest parts row hrow

end

/-- The text of a condition can be read. -/
theorem isLegible_tokens (c : Condition) : isLegible (tokens c) = true :=
  Spreads.tokens (P := fun tokens => isLegible tokens = true)
    ⟨by decide, by decide, by decide, isLegible_bracketed, isLegible_separated⟩ isLegible_test c

/-- **The text of a shaped condition reads back as a condition with the same truth value under
every valuation of its comparisons.** -/
theorem readPredicate_render {c : Condition} (h : IsSound Test.IsShaped c) :
    ∃ e, readPredicate (render (tokens c)) (parameters (tokens c)) = some e
      ∧ ∀ valuation, e.eval valuation = c.eval valuation := by
  obtain ⟨cs, hread, heval⟩ := readsAs_tokens c h {} [] []
  rw [List.append_nil] at hread
  refine ⟨.any [.all cs], ?_, fun valuation => ?_⟩
  · rw [readPredicate, lex_render (isLegible_tokens c)]
    simp only [Reader.readTokens, List.nil_append] at hread
    simp [hread, Reader.result?, Level.condition]
  · simp [Formula.eval, Formula.evalAny, heval]

/-- `AND` binds closer than `OR`. -/
example :
    readPredicate "\"T\".\"a\" IS ? OR \"T\".\"b\" > ? AND \"T\".\"c\" IN (?, ?)"
        [.int 1, .int 2, .int 3, .int 4]
      = some (.any [
          .all [.atom ⟨⟨"T", "a"⟩, .eq, .value (.int 1)⟩],
          .all [.atom ⟨⟨"T", "b"⟩, .gt, .value (.int 2)⟩,
            .atom ⟨⟨"T", "c"⟩, .member, .list [.int 3, .int 4]⟩]]) := by
  cbv

end Condition

end Tabula.Sql
