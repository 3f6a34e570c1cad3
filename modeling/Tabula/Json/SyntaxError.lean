/-!
# Faults of a JSON text

What can be wrong with a text that should be JSON, and the wording of each cause.
-/

namespace Tabula.Json

/-- Why a text is not JSON. -/
inductive SyntaxError where
  | endOfList
  | endOfObject
  | endOfString
  | endOfValue
  | expectedColon
  | expectedListCommaOrEnd
  | expectedObjectCommaOrEnd
  | expectedIdent
  | expectedValue
  | invalidEscape
  | invalidNumber
  | numberOutOfRange
  | controlCharacter
  | keyMustBeString
  | loneSurrogate
  | endOfSurrogatePair
  | trailingComma
  | trailingCharacters
  | tooDeep
  deriving DecidableEq, Repr

/-- The wording of a fault. -/
def SyntaxError.message : SyntaxError → String
  | endOfList => "EOF while parsing a list"
  | endOfObject => "EOF while parsing an object"
  | endOfString => "EOF while parsing a string"
  | endOfValue => "EOF while parsing a value"
  | expectedColon => "expected `:`"
  | expectedListCommaOrEnd => "expected `,` or `]`"
  | expectedObjectCommaOrEnd => "expected `,` or `\x7d`"
  | expectedIdent => "expected ident"
  | expectedValue => "expected value"
  | invalidEscape => "invalid escape"
  | invalidNumber => "invalid number"
  | numberOutOfRange => "number out of range"
  | controlCharacter => "control character (\\u0000-\\u001F) found while parsing a string"
  | keyMustBeString => "key must be a string"
  | loneSurrogate => "lone leading surrogate in hex escape"
  | endOfSurrogatePair => "unexpected end of hex escape"
  | trailingComma => "trailing comma"
  | trailingCharacters => "trailing characters"
  | tooDeep => "recursion limit exceeded"

/-- What the part of a text that breaks off began as. -/
inductive Opening where
  /-- The word for nothing. -/
  | null
  /-- A number or another word. -/
  | scalar
  /-- Anything else, or nothing at all. -/
  | other
  deriving DecidableEq, Repr

/-- One fault, worded three ways: as a reader of the value reports it, as a reader that skips the
value reports it, and as a reader reports it that has all it wants and looks for the end. -/
structure Fault where
  read : SyntaxError
  skipped : SyntaxError
  ending : SyntaxError
  opening : Opening
  deriving DecidableEq, Repr

/-- A fault where neither a number nor a word begins. -/
def Fault.of (read skipped ending : SyntaxError) : Fault := ⟨read, skipped, ending, .other⟩

/-- A fault that every reader words alike. -/
def Fault.always (e : SyntaxError) : Fault := .of e e e

end Tabula.Json
