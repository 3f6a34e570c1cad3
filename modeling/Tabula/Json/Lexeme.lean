import Tabula.Json.Basic

/-!
# Lexemes of a JSON text

A text is cut into brackets, commas, colons, strings, numerals and words. A lexeme that breaks off
carries the fault, worded for readers of the value and for readers that skip it. What only matters
when the value is read (a number out of range, half of a surrogate pair) does not break a lexeme:
its value is the error.
-/

namespace Tabula.Json

/-- A lexeme. -/
inductive Lexeme where
  | openArray
  | closeArray
  | openObject
  | closeObject
  | comma
  | colon
  | null
  | bool (b : Bool)
  | number (value : Except SyntaxError Json)
  | text (value : Except SyntaxError String)
  | brokenText (fault : Fault)
  | broken (fault : Fault)
  | stray

namespace Lexeme

/-! ## Strings -/

/-- A part of a string: a character, or one 16 bit unit written as an escape. -/
inductive Piece where
  | char (c : Char)
  | unit (n : Nat)
  deriving DecidableEq, Repr

/-- What follows an opening quote: the parts up to the closing quote or the fault, and the count
of characters that were used. -/
structure Quoted where
  pieces : List Piece
  fault : Option SyntaxError
  /-- What is objected to if the last part is the first half of a surrogate pair. -/
  pairFault : SyntaxError
  length : Nat

/-- Puts a part in front. -/
def Quoted.cons (piece : Piece) (used : Nat) (q : Quoted) : Quoted :=
  { q with pieces := piece :: q.pieces, length := used + q.length }

/-- The value of a hexadecimal digit. -/
def hexValue? (c : Char) : Option Nat :=
  if c.isDigit then some (c.toNat - '0'.toNat)
  else if 'a' ≤ c && c ≤ 'f' then some (c.toNat - 'a'.toNat + 10)
  else if 'A' ≤ c && c ≤ 'F' then some (c.toNat - 'A'.toNat + 10)
  else none

/-- The value of a row of hexadecimal digits. -/
def hexUnit? (digits : List Char) : Option Nat :=
  digits.foldlM (fun n c => (hexValue? c).map (16 * n + ·)) 0

/-- The character that a one letter escape stands for. -/
def escaped? (c : Char) : Option Char :=
  [('\x22', '\x22'), ('\x5c', '\x5c'), ('/', '/'), ('b', '\x08'), ('f', '\x0c'), ('n', '\n'),
    ('r', '\r'), ('t', '\t')].lookup c

/-- How many bytes the characters of a text take. -/
def byteLength (cs : List Char) : Nat :=
  cs.foldl (fun n c => n + c.utf8Size) 0

/-- Reads a string whose opening quote was taken. An escape ends too early if fewer than four bytes
are left for its digits. -/
def quoted : List Char → Quoted
  | [] => ⟨[], some .endOfString, .endOfString, 0⟩
  | '\x22' :: _ => ⟨[], none, .endOfSurrogatePair, 1⟩
  | ['\x5c'] => ⟨[], some .endOfString, .endOfString, 1⟩
  | '\x5c' :: 'u' :: a :: b :: c :: d :: rest =>
    match hexUnit? [a, b, c, d] with
    | some n => (quoted rest).cons (.unit n) 6
    | none => ⟨[], some .invalidEscape, .invalidEscape, 6⟩
  | '\x5c' :: 'u' :: rest =>
    let fault := if byteLength rest < 4 then SyntaxError.endOfString else .invalidEscape
    ⟨[], some fault, fault, 2⟩
  | '\x5c' :: e :: rest =>
    match escaped? e with
    | some c => (quoted rest).cons (.char c) 2
    | none => ⟨[], some .invalidEscape, .endOfSurrogatePair, 2⟩
  | c :: rest =>
    if c.toNat < 0x20 then ⟨[], some .controlCharacter, .endOfSurrogatePair, 1⟩
    else (quoted rest).cons (.char c) 1

/-- The first half of a surrogate pair. -/
def isHighSurrogate (n : Nat) : Bool := 0xd800 ≤ n && n ≤ 0xdbff

/-- The second half of a surrogate pair. -/
def isLowSurrogate (n : Nat) : Bool := 0xdc00 ≤ n && n ≤ 0xdfff

/-- The characters of a string: a surrogate pair is one character, half a pair is an error, at the
end of the parts the given one. -/
def joinPieces (pairFault : SyntaxError) : List Piece → Except SyntaxError (List Char)
  | [] => .ok []
  | .char c :: rest => (c :: ·) <$> joinPieces pairFault rest
  | .unit n :: rest =>
    if isLowSurrogate n then .error .loneSurrogate
    else if isHighSurrogate n then
      match rest with
      | [] => .error pairFault
      | .char _ :: _ => .error .endOfSurrogatePair
      | .unit m :: rest =>
        if isLowSurrogate m then
          let c := Char.ofNat (0x10000 + (n - 0xd800) * 0x400 + (m - 0xdc00))
          (c :: ·) <$> joinPieces pairFault rest
        else .error .loneSurrogate
    else (Char.ofNat n :: ·) <$> joinPieces pairFault rest

/-- A string lexeme, from what follows its opening quote. -/
def ofQuoted (q : Quoted) : Lexeme :=
  match q.fault, joinPieces q.pairFault q.pieces with
  | none, characters => .text (String.ofList <$> characters)
  | some fault, .error e => .brokenText (.of e fault .trailingCharacters)
  | some fault, .ok _ => .brokenText (.of fault fault .trailingCharacters)

/-! ## Numerals and words -/

/-- The fault of a numeral that lacks a digit before `rest`. -/
def missingDigit (rest : List Char) : Fault :=
  if rest.isEmpty then .of .endOfValue .invalidNumber .trailingCharacters
  else .of .invalidNumber .invalidNumber .trailingCharacters

/-- The exponent at the front of a text and the count of its characters. -/
def exponentPart : List Char → Except Fault (Option (Bool × List Char) × Nat)
  | [] => .ok (none, 0)
  | c :: cs =>
    if c = 'e' || c = 'E' then
      let (negative, cs, used) := match cs with
        | '+' :: rest => (false, rest, 2)
        | '-' :: rest => (true, rest, 2)
        | rest => (false, rest, 1)
      let digits := cs.takeWhile Char.isDigit
      if digits.isEmpty then .error (missingDigit cs)
      else .ok (some (negative, digits), used + digits.length)
    else .ok (none, 0)

/-- The fraction at the front of a text and the count of its characters. -/
def fractionPart : List Char → Except Fault (Option (List Char) × Nat)
  | '.' :: cs =>
    let digits := cs.takeWhile Char.isDigit
    if digits.isEmpty then .error (missingDigit (cs.drop digits.length))
    else .ok (some digits, 1 + digits.length)
  | _ => .ok (none, 0)

/-- The numeral at the front of a text, after its sign, and the count of its characters. -/
def numeral (negative : Bool) (cs : List Char) : Except Fault (Numeral × Nat) := do
  let whole := cs.takeWhile Char.isDigit
  if whole.isEmpty then throw (missingDigit cs)
  if whole.head? = some '0' && 1 < whole.length then
    throw (.of .invalidNumber .invalidNumber .trailingCharacters)
  let (fraction, fractionLength) ← fractionPart (cs.drop whole.length)
  let used := whole.length + fractionLength
  let (exponent, exponentLength) ← exponentPart (cs.drop used)
  return (⟨negative, whole, fraction, exponent⟩, used + exponentLength)

/-- The numeral lexeme at the front of a text, after its sign. -/
def ofNumeral (negative : Bool) (cs : List Char) : Lexeme × Nat :=
  match numeral negative cs with
  | .ok (n, used) => (.number n.value, used)
  | .error fault => (.broken { fault with opening := .scalar }, 0)

/-- How a text departs from the letters of a word. -/
def departure? : List Char → List Char → Option SyntaxError
  | [], _ => none
  | _ :: _, [] => some .endOfValue
  | e :: es, c :: cs => if e = c then departure? es cs else some .expectedIdent

/-- A word, of which the first letter was taken. -/
def word (letters : String) (lexeme : Lexeme) (cs : List Char) : Lexeme × Nat :=
  match departure? letters.toList cs with
  | none => (lexeme, letters.length)
  | some e =>
    let opening := match lexeme with
      | .null => Opening.null
      | _ => .scalar
    (.broken ⟨e, e, .trailingCharacters, opening⟩, 0)

/-! ## Cutting a text -/

/-- Whether a character may stand between lexemes. -/
def isBlank (c : Char) : Bool :=
  c = ' ' || c = '\t' || c = '\n' || c = '\r'

/-- The lexeme that begins with `c`, and how many of the characters after `c` belong to it. -/
def ofChar (c : Char) (cs : List Char) : Lexeme × Nat :=
  match c with
  | '[' => (.openArray, 0)
  | ']' => (.closeArray, 0)
  | '\x7b' => (.openObject, 0)
  | '\x7d' => (.closeObject, 0)
  | ',' => (.comma, 0)
  | ':' => (.colon, 0)
  | 'n' => word "ull" .null cs
  | 't' => word "rue" (.bool true) cs
  | 'f' => word "alse" (.bool false) cs
  | '-' => ofNumeral true cs
  | '\x22' => let q := quoted cs; (ofQuoted q, q.length)
  | c =>
    if c.isDigit then
      let (lexeme, used) := ofNumeral false (c :: cs)
      (lexeme, used - 1)
    else (.stray, 0)

/-- The lexemes of a text. -/
def all : List Char → List Lexeme
  | [] => []
  | c :: cs =>
    if isBlank c then all cs
    else
      let (lexeme, used) := ofChar c cs
      lexeme :: all (cs.drop used)
termination_by cs => cs.length
decreasing_by
  · simp
  · simp only [List.length_cons, List.length_drop]
    omega

end Lexeme

end Tabula.Json
