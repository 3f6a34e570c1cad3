import Tabula.Proofs.Logic.Formula
import Tabula.Proofs.Sql.Lexeme
import Tabula.Sql.Statement

/-!
# Outlines of statements

The outline of a token, a condition or a statement has a blank in the place of every value; what is
compared with a list is compared with a list of as many blanks. Main statements: each kind of
statement has the text of its outline (`Select.render_outline`, `Insert.render_outline`,
`Update.render_outline`, `Delete.render_outline`), so the text tells nothing of the values.
-/

namespace Tabula

/-- What stands for any value that is not a list. -/
def Value.blank : Value := .string "?"

/-- A blank, or as many blanks as a list has items. -/
def Value.outline : Value → Value
  | .list items => .list (items.map fun _ => blank)
  | .null | .bool _ | .int _ | .float _ | .string _ => blank

/-- The same columns with blanks for their values. -/
def RowValues.outline (row : RowValues) : RowValues :=
  row.map fun (column, _) => (column, .blank)

namespace Sql

/-! ## Tokens -/

/-- The token with a blank for its value, if it is the place of a parameter. -/
def Token.outline : Token → Token
  | .parameter _ => .parameter .blank
  | t => t

/-- Outlines forget the values of parameters. -/
@[simp] theorem Token.outline_parameter (v : Value) :
    (parameter v).outline = .parameter .blank := rfl

@[simp] theorem Token.outline_name (s : String) : (name s).outline = .name s := rfl

@[simp] theorem Token.outline_word (w : String) : (word w).outline = .word w := rfl

/-- A token is spelled alike in outline. -/
theorem Token.spelling_outline (t : Token) : t.outline.spelling = t.spelling := by
  cases t <;> rfl

/-- So it stands beside what follows it. -/
theorem Token.gluesRight_outline (t : Token) : t.outline.gluesRight = t.gluesRight := by
  cases t <;> rfl

/-- So it stands beside what it follows. -/
theorem Token.gluesLeft_outline (t : Token) : t.outline.gluesLeft = t.gluesLeft := by
  cases t <;> rfl

@[simp] theorem Token.outline_outline (t : Token) : t.outline.outline = t.outline := by
  cases t <;> rfl

/-- Values are not part of the text. -/
theorem render_outline (tokens : List Token) :
    render (tokens.map Token.outline) = render tokens := by
  induction tokens using render.induct with
  | case1 => rfl
  | case2 t => exact t.spelling_outline
  | case3 t u rest ih =>
    rw [List.map_cons] at ih
    rw [List.map_cons, List.map_cons, render, render, ih, t.spelling_outline, t.gluesRight_outline,
      u.gluesLeft_outline]

/-- Rows of tokens with the same outline have the same text. -/
theorem render_congr {a b : List Token} (h : a.map Token.outline = b.map Token.outline) :
    render a = render b := by
  rw [← render_outline a, h, render_outline]

/-- Keywords are their own outline. -/
theorem outline_words (keywords : List String) :
    (words keywords).map Token.outline = words keywords := by
  rw [words, List.map_map]
  rfl

/-- The outline of separated rows is that of each row, separated alike. -/
theorem outline_separated (separator : List Token) (rows : List (List Token)) :
    (separated separator rows).map Token.outline
      = separated (separator.map Token.outline) (rows.map (List.map Token.outline)) := by
  cases rows with
  | nil => rfl
  | cons row rows =>
    rw [List.map_cons, separated_cons, separated_cons, List.map_append, List.map_flatMap,
      List.flatMap_map]
    simp only [List.map_append]

/-- So it is with commas. -/
theorem outline_commas (rows : List (List Token)) :
    (commas rows).map Token.outline = commas (rows.map (List.map Token.outline)) :=
  outline_separated [.comma] rows

/-- The outline of what stands in brackets stands in brackets. -/
theorem outline_bracketed (tokens : List Token) :
    (bracketed tokens).map Token.outline = bracketed (tokens.map Token.outline) := by
  simp [bracketed, Token.outline]

/-! ## Conditions -/

/-- The operand with blanks for its values. -/
def Operand.outline : Operand → Operand
  | .value _ => .value .blank
  | .list vs => .list (vs.map fun _ => .blank)

/-- The comparison of the same column by the same method with blanks. -/
def Test.outline (t : Test) : Test := { t with operand := t.operand.outline }

/-- The outline of an operand is written as the outline of what it is written as. -/
theorem Operand.tokens_outline (o : Operand) : o.outline.tokens = o.tokens.map Token.outline := by
  cases o with
  | value v => rfl
  | list vs =>
    rw [outline, tokens, tokens, outline_bracketed, outline_commas, List.map_map, List.map_map]
    rfl

/-- So is that of a comparison. -/
theorem Test.tokens_outline (t : Test) : t.outline.tokens = t.tokens.map Token.outline := by
  rw [tokens, tokens, List.map_append, List.map_append, outline_words, ← Operand.tokens_outline]
  rfl

namespace Condition

/-- The condition with blanks for the values of its comparisons. -/
def outline (c : Condition) : Condition := c.map Test.outline

/-- A condition is bracketed in outline exactly if it is bracketed. -/
theorem grouped_outline (c : Condition) (tokens : List Token) :
    grouped c.outline (tokens.map Token.outline) = (grouped c tokens).map Token.outline := by
  cases c with
  | all parts => exact (outline_bracketed tokens).symm
  | atom t => rfl
  | any parts => rfl

mutual

/-- The outline of a condition is written as the outline of its tokens. -/
theorem tokens_outline : (c : Condition) → tokens c.outline = (tokens c).map Token.outline
  | .atom t => t.tokens_outline
  | .all [] => rfl
  | .all [part] => tokens_outline part
  | .all (part :: other :: parts) => by
    have hgroups := groups_outline (part :: other :: parts)
    rw [tokens, outline_separated, ← hgroups]
    · rfl
    · simp
  | .any parts => by
    rw [tokens, outline_bracketed, outline_separated, ← groups_outline parts]
    rfl

/-- The parts of a condition are written in outline as they are. -/
theorem groups_outline : (parts : List Condition) →
    groups (Formula.mapParts Test.outline parts) = (groups parts).map (List.map Token.outline)
  | [] => rfl
  | part :: parts => by
    rw [Formula.mapParts, groups, groups, List.map_cons, ← grouped_outline, ← tokens_outline part,
      groups_outline parts]
    rfl

end

/-- So is a clause. -/
theorem clause_outline (c : Option Condition) :
    clause (c.map outline) = (clause c).map Token.outline := by
  cases c with
  | none => rfl
  | some c =>
    rw [Option.map_some, clause, clause, tokens_outline c]
    rfl

end Condition

/-! ## Statements -/

/-- The statement with blanks for the values that it compares with, and with the limit one if it has
a limit. -/
def Select.outline (s : Select) : Select :=
  { s with condition := s.condition.map Condition.outline, limit := s.limit.map fun _ => 1 }

/-- The statement with blanks for the values that it adds. -/
def Insert.outline (s : Insert) : Insert := { s with values := RowValues.outline s.values }

/-- The statement with blanks for the values that it sets and compares with. -/
def Update.outline (s : Update) : Update :=
  { s with
    values := RowValues.outline s.values, condition := s.condition.map Condition.outline }

/-- The statement with blanks for the values that it compares with. -/
def Delete.outline (s : Delete) : Delete :=
  { s with condition := s.condition.map Condition.outline }

/-- The text of a select statement is that of its outline. -/
theorem Select.render_outline (s : Select) : render s.outline.tokens = render s.tokens := by
  refine render_congr ?_
  obtain ⟨columns, table, joins, condition, ordering, limit⟩ := s
  cases limit <;> simp [outline, tokens, Condition.clause_outline, Function.comp_def]

/-- The text of an insert statement is that of its outline. -/
theorem Insert.render_outline (s : Insert) : render s.outline.tokens = render s.tokens := by
  refine render_congr ?_
  obtain ⟨table, values⟩ := s
  cases values with
  | nil => rfl
  | cons entry values =>
    simp [outline, tokens, RowValues.outline, outline_bracketed, outline_commas, Function.comp_def]

/-- The text of an update statement is that of its outline. -/
theorem Update.render_outline (s : Update) : render s.outline.tokens = render s.tokens := by
  refine render_congr ?_
  simp [outline, tokens, RowValues.outline, Condition.clause_outline, outline_commas,
    Function.comp_def]

/-- The text of a delete statement is that of its outline. -/
theorem Delete.render_outline (s : Delete) : render s.outline.tokens = render s.tokens := by
  refine render_congr ?_
  simp [outline, tokens, Condition.clause_outline, Function.comp_def]

end Sql

end Tabula
