import Mathlib.Tactic.FinCases
import Tabula.Sql.Token

/-!
# Lexemes of statements

Statement text is read back by the lexical rules of SQL: blanks separate lexemes, a name stands in
double quotes and a string in single ones, with a doubled quote for one of them, words and numbers
reach as far as they can. Main statement: the text of a row of tokens reads back as the lexemes of
these tokens, whatever their names and strings contain (`lex_render`).
-/

namespace Tabula.Sql

/-- What statement text is made of. -/
inductive Lexeme where
  /-- A keyword, operator, type name or function name. -/
  | word (s : String)
  | name (s : String)
  | text (s : String)
  | number (s : String)
  | placeholder
  | openBracket
  | closeBracket
  | comma
  | dot
  deriving DecidableEq, Repr

namespace Lexeme

/-! ## Characters -/

/-- The kinds of lexemes that reach as far as they can. -/
inductive Run where
  | letters
  | relation
  | numeral
  deriving DecidableEq, Repr

/-- Whether a character belongs to a run. -/
def Run.takes : Run → Char → Bool
  | letters, c => c.isAlpha || c = '_'
  | relation, c => c = '<' || c = '>' || c = '='
  | numeral, c => c.isDigit || c = '.' || c = '-' || c = '+' || c = 'e' || c = 'E'

/-- The run that a character begins. -/
def Run.of? (c : Char) : Option Run :=
  if letters.takes c then some letters
  else if relation.takes c then some relation
  else if c.isDigit || c = '-' then some numeral
  else none

/-- The lexeme of a run. -/
def Run.lexeme (cs : List Char) : Run → Lexeme
  | letters | relation => .word (String.ofList cs)
  | numeral => .number (String.ofList cs)

/-- The lexeme that a character is by itself. -/
def ofChar? : Char → Option Lexeme
  | '?' => some placeholder
  | '(' => some openBracket
  | ')' => some closeBracket
  | ',' => some comma
  | '.' => some dot
  | _ => none

/-- What the mark that begins a quotation makes of its content. -/
def ofMark? : Char → Option (String → Lexeme)
  | '\x22' => some name
  | '\x27' => some text
  | _ => none

/-- What stands before the mark that ends a quotation, and what follows it. Two marks stand for
one. -/
def unquote (mark : Char) : List Char → Option (List Char × List Char)
  | [] => none
  | c :: cs =>
    if c ≠ mark then (unquote mark cs).map fun (s, rest) => (c :: s, rest)
    else
      match cs with
      | [] => some ([], [])
      | d :: ds =>
        if d = mark then (unquote mark ds).map fun (s, rest) => (mark :: s, rest)
        else some ([], d :: ds)

/-- What follows a quoted text is no longer than the text with it. -/
theorem length_unquote_le {mark : Char} {cs s rest : List Char}
    (h : unquote mark cs = some (s, rest)) : rest.length ≤ cs.length := by
  fun_induction unquote mark cs generalizing s rest with
  | case1 => simp at h
  | case2 c cs hc ih =>
    obtain ⟨⟨s', rest'⟩, hq, heq⟩ := Option.map_eq_some_iff.1 h
    have hle := ih hq
    simp only [Prod.mk.injEq] at heq
    simp only [List.length_cons, ← heq.2]
    omega
  | case3 c hc =>
    simp only [Option.some.injEq, Prod.mk.injEq] at h
    simp [← h.2]
  | case4 c hc ds ih =>
    obtain ⟨⟨s', rest'⟩, hq, heq⟩ := Option.map_eq_some_iff.1 h
    have hle := ih hq
    simp only [Prod.mk.injEq] at heq
    simp only [List.length_cons, ← heq.2]
    omega
  | case5 c hc d ds hd =>
    simp only [Option.some.injEq, Prod.mk.injEq] at h
    simp [← h.2]

end Lexeme

open Lexeme in
/-- The lexemes of statement text. -/
def lex : List Char → Option (List Lexeme)
  | [] => some []
  | c :: cs =>
    if c = ' ' then lex cs
    else
      match ofChar? c, ofMark? c, Run.of? c with
      | some l, _, _ => (lex cs).map (l :: ·)
      | none, some l, _ =>
        match _h : unquote c cs with
        | some (s, rest) => (lex rest).map (l (String.ofList s) :: ·)
        | none => none
      | none, none, some r =>
        (lex (cs.dropWhile r.takes)).map (r.lexeme (c :: cs.takeWhile r.takes) :: ·)
      | none, none, none => none
termination_by cs => cs.length
decreasing_by
  · simp
  · simp
  · have := length_unquote_le _h
    simp only [List.length_cons]
    omega
  · have := (List.dropWhile_suffix (l := cs) r.takes).length_le
    simp only [List.length_cons]
    omega

/-! ## Reading back one token -/

namespace Lexeme

/-- A character that is no quote stands for itself. -/
theorem unquote_cons_of_ne {mark c : Char} (h : c ≠ mark) (cs : List Char) :
    unquote mark (c :: cs) = (unquote mark cs).map fun (s, rest) => (c :: s, rest) := by
  rw [unquote.eq_def]
  exact if_pos h

/-- Quoted characters read back, if what follows does not begin with a mark. -/
theorem unquote_doubled (mark : Char) (s rest : List Char) (h : rest.head? ≠ some mark) :
    unquote mark (doubled mark s ++ mark :: rest) = some (s, rest) := by
  induction s with
  | nil =>
    cases rest with
    | nil => simp [doubled, unquote]
    | cons d ds =>
      have hd : d ≠ mark := by simpa using h
      simp [doubled, unquote, hd]
  | cons c s ih =>
    by_cases hc : c = mark
    · subst hc
      simp [doubled, unquote, ih]
    · rw [doubled, if_neg hc, List.cons_append, unquote_cons_of_ne hc, ih]
      rfl

end Lexeme

open Lexeme

/-- A blank separates lexemes and is none. -/
theorem lex_blank (cs : List Char) : lex (' ' :: cs) = lex cs := by
  rw [lex, if_pos rfl]

/-- A character that is a lexeme by itself. -/
theorem lex_char {c : Char} {l : Lexeme} (h : ofChar? c = some l) (rest : List Char) :
    lex (c :: rest) = (lex rest).map (l :: ·) := by
  have hblank : c ≠ ' ' := by
    rintro rfl
    simp [ofChar?] at h
  rw [lex, if_neg hblank, h]

/-- A quotation ends at the first mark that is not doubled. -/
theorem lex_enclosed {mark : Char} {l : String → Lexeme} (h : ofMark? mark = some l) (s : String)
    (rest : List Char) (hrest : rest.head? ≠ some mark) :
    lex ((enclosed mark s).toList ++ rest) = (lex rest).map (l s :: ·) := by
  have hmark : mark = '\x22' ∨ mark = '\x27' := by
    unfold ofMark? at h
    split at h <;> simp_all
  have hchar : ofChar? mark = none := by
    rcases hmark with rfl | rfl <;> rfl
  have hblank : mark ≠ ' ' := by
    rcases hmark with rfl | rfl <;> decide
  have hquote := unquote_doubled mark s.toList rest hrest
  simp only [enclosed, String.toList_ofList, List.cons_append, List.append_assoc,
    List.nil_append]
  rw [lex, if_neg hblank, hchar, h]
  dsimp only
  split
  · next s' rest' hs =>
      rw [hquote] at hs
      simp only [Option.some.injEq, Prod.mk.injEq] at hs
      rw [← hs.1, ← hs.2, String.ofList_toList]
  · next hs => simp [hquote] at hs

/-- A run ends at the first character that does not belong to it. -/
theorem lex_run {c : Char} {r : Run} (hr : Run.of? c = some r) (cs rest : List Char)
    (hcs : cs.all r.takes) (hrest : ∀ d ∈ rest.head?, r.takes d = false) :
    lex (c :: (cs ++ rest)) = (lex rest).map (r.lexeme (c :: cs) :: ·) := by
  have hother : c ≠ ' ' ∧ ofChar? c = none ∧ ofMark? c = none := by
    refine ⟨?_, ?_, ?_⟩
    · rintro rfl
      simp [Run.of?, Run.takes] at hr
    · unfold ofChar?
      split <;> first | rfl | simp [Run.of?, Run.takes] at hr
    · unfold ofMark?
      split <;> first | rfl | simp [Run.of?, Run.takes] at hr
  have htake : (cs ++ rest).takeWhile r.takes = cs := by
    rw [List.takeWhile_append_of_pos (by simpa using hcs)]
    cases rest with
    | nil => simp
    | cons d ds => simp [hrest d (by simp)]
  have hdrop : (cs ++ rest).dropWhile r.takes = rest := by
    rw [List.dropWhile_append_of_pos (by simpa using hcs)]
    cases rest with
    | nil => simp
    | cons d ds => simp [hrest d (by simp)]
  rw [lex, if_neg hother.1, hother.2.1, hother.2.2, hr]
  dsimp only
  rw [htake, hdrop]

/-! ## Reading back a row of tokens -/

/-- What a token is to a reader. A parameter is a placeholder, its value is not in the text. -/
def Token.lexemes : Token → List Lexeme
  | .word s => [.word s]
  | .call function => [.word function, .openBracket]
  | .name s => [.name s]
  | .text s => [.text s]
  | .number s => [.number s]
  | .parameter _ => [.placeholder]
  | .openBracket => [.openBracket]
  | .closeBracket => [.closeBracket]
  | .comma => [.comma]
  | .dot => [.dot]

/-- Whether a spelling is one run of some kinds. -/
def isRun (kinds : List Run) (s : String) : Bool :=
  match s.toList with
  | [] => false
  | c :: cs => (Run.of? c).any fun r => kinds.contains r && cs.all r.takes

/-- Whether a token that is no dot can be told from what stands around it. -/
def Token.isLegible : Token → Bool
  | .word s => isRun [.letters, .relation] s
  | .call function => isRun [.letters] function
  | .number s => isRun [.numeral] s
  | .dot => false
  | _ => true

/-- Whether a row of tokens can be read back: a dot stands after a name only. -/
def isLegible : List Token → Bool
  | [] => true
  | .name _ :: .dot :: tokens => isLegible tokens
  | t :: tokens => t.isLegible && isLegible tokens

/-- The blank between a token and the row that follows it. -/
def gap (t : Token) : List Token → String
  | [] => ""
  | u :: _ => if t.gluesRight || u.gluesLeft then "" else " "

/-- A text begins with its first token and the gap after it. -/
theorem render_cons (t : Token) (tokens : List Token) :
    render (t :: tokens) = t.spelling ++ gap t tokens ++ render tokens := by
  cases tokens with
  | nil => simp [render, gap]
  | cons u rest => rfl

/-- The text that follows a token. -/
def following (t : Token) (tokens : List Token) : List Char :=
  (gap t tokens ++ render tokens).toList

theorem toList_render_cons (t : Token) (tokens : List Token) :
    (render (t :: tokens)).toList = t.spelling.toList ++ following t tokens := by
  rw [render_cons, following]
  simp

/-- The gap after a token is no lexeme. -/
theorem lex_following (t : Token) (tokens : List Token) :
    lex (following t tokens) = lex (render tokens).toList := by
  cases tokens with
  | nil => rfl
  | cons u rest =>
    by_cases h : (t.gluesRight || u.gluesLeft) = true
    · simp [following, gap, h]
    · simp only [following, gap, if_neg h, String.toList_append]
      exact lex_blank _

/-- A token that is not written up against the next one is followed by a blank, by a closing
bracket, by a comma or by the dot that follows it. -/
theorem head?_following {t : Token} {tokens : List Token} {c : Char} (ht : t.gluesRight = false)
    (hc : c ∈ (following t tokens).head?) :
    c = ' ' ∨ c = ')' ∨ c = ',' ∨ (c = '.' ∧ tokens.head? = some .dot) := by
  cases tokens with
  | nil => simp [following, gap, render] at hc
  | cons u rest =>
    cases hu : u.gluesLeft with
    | false =>
      left
      simpa [following, gap, ht, hu, eq_comm] using hc
    | true =>
      right
      have hgap : gap t (u :: rest) = "" := by simp [gap, hu]
      rw [following, render_cons, hgap] at hc
      cases u with
      | closeBracket =>
        obtain rfl : ')' = c := by simpa [Token.spelling] using hc
        simp
      | comma =>
        obtain rfl : ',' = c := by simpa [Token.spelling] using hc
        simp
      | dot =>
        obtain rfl : '.' = c := by simpa [Token.spelling] using hc
        simp
      | _ => simp [Token.gluesLeft] at hu

/-- A run is a first character of its kind and others that it takes. -/
theorem exists_run_of_isRun {kinds : List Run} {s : String} (h : isRun kinds s = true) :
    ∃ c cs r, s.toList = c :: cs ∧ Run.of? c = some r ∧ r ∈ kinds ∧ cs.all r.takes = true := by
  unfold isRun at h
  split at h
  · simp at h
  · next c cs hs =>
      simp only [Option.any_eq_true, Bool.and_eq_true, List.contains_iff_mem] at h
      obtain ⟨r, hr, hkind, hcs⟩ := h
      exact ⟨c, cs, r, hs, hr, hkind, hcs⟩

/-- A spelling that is one run reads back, if what follows does not go on with it. -/
theorem lex_spelled {kinds : List Run} {s : String} (h : isRun kinds s = true) (rest : List Char)
    (hrest : ∀ r ∈ kinds, ∀ d ∈ rest.head?, r.takes d = false) :
    ∃ r ∈ kinds, lex (s.toList ++ rest) = (lex rest).map (r.lexeme s.toList :: ·) := by
  obtain ⟨c, cs, r, hs, hr, hkind, hcs⟩ := exists_run_of_isRun h
  refine ⟨r, hkind, ?_⟩
  rw [hs, List.cons_append]
  exact lex_run hr cs rest hcs (hrest r hkind)

/-- A word is one lexeme, since the gap after it keeps it from what follows. -/
theorem lex_word {s : String} (hs : isRun [.letters, .relation] s = true) (tokens : List Token) :
    lex (s.toList ++ following (.word s) tokens)
      = (lex (following (.word s) tokens)).map ((Token.word s).lexemes ++ ·) := by
  obtain ⟨r, hr, hlex⟩ := lex_spelled hs (following (.word s) tokens) (by
    intro r hr d hd
    obtain h | h | h | ⟨h, -⟩ := head?_following rfl hd <;> subst h <;> fin_cases hr <;> decide)
  rw [hlex]
  fin_cases hr <;> simp [Run.lexeme, Token.lexemes]

/-- The name of a function is one lexeme, and the bracket after it another. -/
theorem lex_call {function : String} (hs : isRun [.letters] function = true)
    (tokens : List Token) :
    lex (function.toList ++ '(' :: following (.call function) tokens)
      = (lex (following (.call function) tokens)).map ((Token.call function).lexemes ++ ·) := by
  obtain ⟨r, hr, hlex⟩ := lex_spelled hs ('(' :: following (.call function) tokens) (by
    intro r hr d hd
    obtain rfl : '(' = d := by simpa using hd
    fin_cases hr
    decide)
  rw [hlex, lex_char rfl]
  fin_cases hr
  simp [Run.lexeme, Token.lexemes, Function.comp_def]

/-- A number reads back if no dot follows it, which would go on with it. -/
theorem lex_number {s : String} (hs : isRun [.numeral] s = true) {tokens : List Token}
    (hdot : tokens.head? ≠ some .dot) :
    lex (s.toList ++ following (.number s) tokens)
      = (lex (following (.number s) tokens)).map ((Token.number s).lexemes ++ ·) := by
  obtain ⟨r, hr, hlex⟩ := lex_spelled hs (following (.number s) tokens) (by
    intro r hr d hd
    fin_cases hr
    obtain rfl | rfl | rfl | ⟨-, h⟩ := head?_following rfl hd
    · decide
    · decide
    · decide
    · exact absurd h hdot)
  rw [hlex]
  fin_cases hr
  simp [Run.lexeme, Token.lexemes]

/-- A token with a legible spelling reads back, whatever legible row follows it. -/
theorem lex_spelling {t : Token} {tokens : List Token} (ht : t.isLegible = true ∨ t = .dot)
    (hdot : tokens.head? = some .dot → ∃ s, t = .name s) :
    lex (t.spelling.toList ++ following t tokens)
      = (lex (following t tokens)).map (t.lexemes ++ ·) := by
  cases t with
  | word s =>
    have hs : isRun [.letters, .relation] s = true := by simpa [Token.isLegible] using ht
    exact lex_word hs tokens
  | call function =>
    have hs : isRun [.letters] function = true := by simpa [Token.isLegible] using ht
    rw [Token.spelling, String.toList_append, List.append_assoc]
    exact lex_call hs tokens
  | name s =>
    refine lex_enclosed rfl s _ ?_
    intro h
    obtain h | h | h | ⟨h, -⟩ := head?_following rfl h <;> simp at h
  | text s =>
    refine lex_enclosed rfl s _ ?_
    intro h
    obtain h | h | h | ⟨h, -⟩ := head?_following rfl h <;> simp at h
  | number s =>
    have hs : isRun [.numeral] s = true := by simpa [Token.isLegible] using ht
    refine lex_number hs ?_
    intro h
    obtain ⟨s', h⟩ := hdot h
    cases h
  | parameter v =>
    rw [Token.spelling]
    exact lex_char (c := '?') rfl _
  | openBracket =>
    rw [Token.spelling]
    exact lex_char (c := '(') rfl _
  | closeBracket =>
    rw [Token.spelling]
    exact lex_char (c := ')') rfl _
  | comma =>
    rw [Token.spelling]
    exact lex_char (c := ',') rfl _
  | dot =>
    rw [Token.spelling]
    exact lex_char (c := '.') rfl _

/-- **The text of a row of tokens reads back as the lexemes of these tokens.** -/
theorem lex_render {tokens : List Token} (h : isLegible tokens = true) :
    lex (render tokens).toList = some (tokens.flatMap Token.lexemes) := by
  fun_induction isLegible tokens with
  | case1 => simp [render, lex]
  | case2 s tokens ih =>
    have hdot : tokens.head? = some .dot → ∃ s, Token.dot = .name s := by
      intro hhead
      cases tokens <;> simp_all [isLegible, Token.isLegible]
    rw [toList_render_cons, lex_spelling (.inl rfl) fun _ => ⟨s, rfl⟩, lex_following,
      toList_render_cons, lex_spelling (.inr rfl) hdot, lex_following, ih h]
    rfl
  | case3 t tokens hne ih =>
    simp only [Bool.and_eq_true] at h
    have hdot : tokens.head? = some .dot → ∃ s, t = .name s := by
      intro hhead
      cases tokens <;> simp_all [isLegible, Token.isLegible]
    rw [toList_render_cons, lex_spelling (.inl h.1) hdot, lex_following, ih h.2]
    rfl

/-! ## Legible rows -/

theorem isLegible_cons {t : Token} {tokens : List Token} (ht : t.isLegible = true)
    (h : isLegible tokens = true) : isLegible (t :: tokens) = true := by
  unfold isLegible
  split
  · rfl
  · next s rest heq =>
      obtain ⟨rfl, rfl⟩ := List.cons.inj heq
      simp [isLegible, Token.isLegible] at h
  · next t' rest _ heq =>
      obtain ⟨rfl, rfl⟩ := List.cons.inj heq
      simp [ht, h]

/-- Two legible rows are legible together. -/
theorem isLegible_append {a b : List Token} (ha : isLegible a = true) (hb : isLegible b = true) :
    isLegible (a ++ b) = true := by
  fun_induction isLegible a with
  | case1 => exact hb
  | case2 s tokens ih => exact ih ha
  | case3 t tokens hne ih =>
    simp only [Bool.and_eq_true] at ha
    exact isLegible_cons ha.1 (ih ha.2)

/-- Keywords are legible if they are words or signs of relations. -/
theorem isLegible_words {keywords : List String}
    (h : ∀ w ∈ keywords, isRun [.letters, .relation] w = true) :
    isLegible (words keywords) = true := by
  induction keywords with
  | nil => rfl
  | cons w ws ih =>
    exact isLegible_cons (h w (by simp)) (ih fun v hv => h v (by simp [hv]))

/-- Legible rows are legible together. -/
theorem isLegible_flatMap {α : Type} {f : α → List Token} {xs : List α}
    (h : ∀ x ∈ xs, isLegible (f x) = true) : isLegible (xs.flatMap f) = true := by
  induction xs with
  | nil => rfl
  | cons x xs ih =>
    rw [List.flatMap_cons]
    exact isLegible_append (h x (by simp)) (ih fun y hy => h y (by simp [hy]))

/-- A separator stands before every row but the first. -/
theorem separated_cons (separator row : List Token) (rows : List (List Token)) :
    separated separator (row :: rows) = row ++ rows.flatMap (separator ++ ·) := by
  induction rows generalizing row with
  | nil => simp [separated, List.intercalate]
  | cons next rows ih =>
    have hnext := ih next
    simp only [separated, List.intercalate] at hnext ⊢
    simp [List.intersperse, hnext]

/-- So are separated rows, if what separates them is legible. -/
theorem isLegible_separated {separator : List Token} {rows : List (List Token)}
    (hs : isLegible separator = true) (h : ∀ row ∈ rows, isLegible row = true) :
    isLegible (separated separator rows) = true := by
  cases rows with
  | nil => rfl
  | cons row rows =>
    rw [separated_cons]
    refine isLegible_append (h row (by simp)) (isLegible_flatMap fun r hr => ?_)
    exact isLegible_append hs (h r (by simp [hr]))

/-- In brackets a legible row is legible. -/
theorem isLegible_bracketed {tokens : List Token} (h : isLegible tokens = true) :
    isLegible (bracketed tokens) = true :=
  isLegible_cons rfl (isLegible_append h rfl)

end Tabula.Sql
