import Tabula.Value

/-!
# Statement tokens

The text of a statement is a row of tokens with blanks between them. Names are quoted by doubling
their quotes and strings by doubling their apostrophes, so no name and no string can end early;
values never become text, they are parameters.
-/

namespace Tabula.Sql

/-- A token. -/
inductive Token where
  /-- A keyword, operator or type name. -/
  | word (s : String)
  /-- The name of a function with the bracket that opens its arguments. -/
  | call (function : String)
  /-- A quoted name. -/
  | name (s : String)
  /-- A string literal. -/
  | text (s : String)
  /-- A number literal. -/
  | number (s : String)
  /-- The place of a parameter, with its value. -/
  | parameter (v : Value)
  | openBracket
  | closeBracket
  | comma
  | dot
  deriving Repr, BEq

/-! ## Quoting -/

/-- Characters with every `mark` written twice. -/
def doubled (mark : Char) : List Char → List Char
  | [] => []
  | c :: cs => if c = mark then mark :: mark :: doubled mark cs else c :: doubled mark cs

/-- Characters between two marks, the marks inside doubled. -/
def enclosed (mark : Char) (s : String) : String :=
  String.ofList (mark :: doubled mark s.toList ++ [mark])

/-- A name in double quotes. -/
def quoteName (s : String) : String := enclosed '\x22' s

/-- A string literal. -/
def quoteText (s : String) : String := enclosed '\x27' s

/-- Every mark is written twice and all else once. -/
theorem count_doubled (mark c : Char) (cs : List Char) :
    (doubled mark cs).count c = (if c = mark then 2 else 1) * cs.count c := by
  induction cs with
  | nil => simp [doubled]
  | cons d ds ih => by_cases h : d = mark <;> by_cases hc : c = d <;> grind [doubled]

/-! ## Writing -/

/-- The text of a token. -/
def Token.spelling : Token → String
  | .word s => s
  | .call function => function ++ "("
  | .name s => quoteName s
  | .text s => quoteText s
  | .number s => s
  | .parameter _ => "?"
  | .openBracket => "("
  | .closeBracket => ")"
  | .comma => ","
  | .dot => "."

/-- Whether a token is written up against the token after it. -/
def Token.gluesRight : Token → Bool
  | .call _ | .openBracket | .dot => true
  | _ => false

/-- Whether a token is written up against the token before it. -/
def Token.gluesLeft : Token → Bool
  | .closeBracket | .comma | .dot => true
  | _ => false

/-- The text of a row of tokens. -/
def render : List Token → String
  | [] => ""
  | [t] => t.spelling
  | t :: u :: rest =>
    let blank := if t.gluesRight || u.gluesLeft then "" else " "
    t.spelling ++ blank ++ render (u :: rest)

/-- The values of the parameters of a row of tokens, from left to right. -/
def parameters (tokens : List Token) : List Value :=
  tokens.filterMap fun
    | .parameter v => some v
    | _ => none

@[simp] theorem parameters_append (a b : List Token) :
    parameters (a ++ b) = parameters a ++ parameters b := by
  simp [parameters]

/-- Keywords in a row. -/
def words (keywords : List String) : List Token :=
  keywords.map .word

/-- Rows of tokens with a separator between them. -/
def separated (separator : List Token) (rows : List (List Token)) : List Token :=
  separator.intercalate rows

/-- Rows of tokens with commas between them. -/
def commas (rows : List (List Token)) : List Token :=
  separated [.comma] rows

/-- Tokens in brackets. -/
def bracketed (tokens : List Token) : List Token :=
  .openBracket :: tokens ++ [.closeBracket]

/-- Float literals have a point or an exponent. The leading digit may be worth from `10 ^ -4` to
`10 ^ 15` for positional writing. -/
def numberLayout : Decimal.Layout where
  halfway := .away
  positional lead := -4 ≤ lead && lead ≤ 15
  keepsPoint := true
  pointBeforeExponent := false
  plusSign := false
  exponentWidth := 1

end Tabula.Sql
