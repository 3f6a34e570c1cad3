import Tabula.Json.Lexeme

/-!
# Scanned documents

Scanning a text gives a tree even if the text is faulty: the tree then ends in a `broken` leaf.
Readers that walk the tree in the order of the text (`Document.toJson`, and the decoders of
records) therefore meet their own objections and the faults of the text in the right order.

Scanning is a machine with a stack of open containers that takes one lexeme at a time, so it ends
for every text and needs no bound on nesting; containers nested deeper than readers accept are
marked `deep`.
-/

namespace Tabula.Json

/-- A scanned text. Fields keep the order of the text and may repeat. -/
inductive Document where
  | null
  | bool (b : Bool)
  | number (value : Except SyntaxError Json)
  | string (value : Except SyntaxError String)
  | array (items : List Document)
  | object (fields : List (Except SyntaxError String × Document))
  | deep (container : Document)
  | broken (fault : Fault)

namespace Document

/-! ## Scanning -/

/-- A container that is still open, its contents newest first. -/
inductive Frame where
  | array (items : List Document)
  | object (fields : List (Except SyntaxError String × Document))
      (key : Option (Except SyntaxError String))

/-- What the text has to go on with. -/
inductive Expecting where
  | value
  | firstItem
  | nextItem
  | afterItem
  | firstKey
  | nextKey
  | colon
  | afterField

/-- The effect of one lexeme. -/
inductive Step where
  | go (frames : List Frame) (want : Expecting)
  | finished (document : Document)
  | failed (fault : Fault)

/-- Containers nested up to this depth can be read. -/
def maxDepth : Nat := 127

/-- A container at its depth of nesting. -/
def atDepth (depth : Nat) (container : Document) : Document :=
  if maxDepth < depth then .deep container else container

/-- Puts a finished value where the innermost open container wants it. -/
def place (value : Document) : List Frame → Step
  | [] => .finished value
  | .array items :: frames => .go (.array (value :: items) :: frames) .afterItem
  | .object fields key :: frames =>
    .go (.object ((key.getD (.ok ""), value) :: fields) none :: frames) .afterField

/-- Closes the innermost open container. -/
def close (frames : List Frame) : Step :=
  match frames with
  | [] => .failed (.always .expectedValue)
  | .array items :: rest => place (atDepth frames.length (.array items.reverse)) rest
  | .object fields _ :: rest => place (atDepth frames.length (.object fields.reverse)) rest

/-- Starts a value, or reports that there is none. -/
def startValue (frames : List Frame) : Lexeme → Step
  | .null => place .null frames
  | .bool b => place (.bool b) frames
  | .number n => place (.number n) frames
  | .text s => place (.string s) frames
  | .openArray => .go (.array [] :: frames) .firstItem
  | .openObject => .go (.object [] none :: frames) .firstKey
  | .broken fault | .brokenText fault => .failed fault
  | _ => .failed (.of .expectedValue .expectedValue .trailingCharacters)

/-- Starts a field, or reports that its key is missing. -/
def startField (frames : List Frame) : Lexeme → Step
  | .text key =>
    match frames with
    | .object fields _ :: rest => .go (.object fields (some key) :: rest) .colon
    | _ => .failed (.always .keyMustBeString)
  | .brokenText fault => .failed fault
  | _ => .failed (.of .keyMustBeString .keyMustBeString .expectedValue)

/-- The machine's step. -/
def step (frames : List Frame) (want : Expecting) (l : Lexeme) : Step :=
  match want, l with
  | .value, l => startValue frames l
  | .firstItem, .closeArray => close frames
  | .firstItem, l => startValue frames l
  | .nextItem, .closeArray => .failed (.of .trailingComma .expectedValue .trailingComma)
  | .nextItem, l => startValue frames l
  | .afterItem, .comma => .go frames .nextItem
  | .afterItem, .closeArray => close frames
  | .afterItem, _ =>
    .failed (.of .expectedListCommaOrEnd .expectedListCommaOrEnd .trailingCharacters)
  | .firstKey, .closeObject => close frames
  | .firstKey, l => startField frames l
  | .nextKey, .closeObject => .failed (.of .trailingComma .keyMustBeString .expectedValue)
  | .nextKey, l => startField frames l
  | .colon, .colon => .go frames .value
  | .colon, _ => .failed (.always .expectedColon)
  | .afterField, .comma => .go frames .nextKey
  | .afterField, .closeObject => close frames
  | .afterField, _ =>
    .failed (.of .expectedObjectCommaOrEnd .expectedObjectCommaOrEnd .expectedValue)

/-- The fault of a text that ends too early. -/
def endFault : Expecting → Fault
  | .value => .always .endOfValue
  | .firstItem => .always .endOfList
  | .nextItem => .of .endOfValue .endOfValue .trailingCharacters
  | .afterItem => .always .endOfList
  | .firstKey => .always .endOfObject
  | .nextKey => .of .endOfValue .endOfObject .expectedValue
  | .colon => .always .endOfObject
  | .afterField => .always .endOfObject

/-- The tree of a text that breaks off with `last` inside the open containers. -/
def unwind (last : Document) (fault : Fault) : List Frame → Document
  | [] => last
  | frame :: frames =>
    let container := match frame with
      | .array items => Document.array (items.reverse ++ [last])
      | .object fields (some key) => .object (fields.reverse ++ [(key, last)])
      | .object fields none => .object (fields.reverse ++ [(.error fault.read, last)])
    unwind (atDepth (frames.length + 1) container) fault frames

/-- A scanned text, and whether more than blanks follows the value. -/
structure Scan where
  document : Document
  trailing : Bool

/-- Runs the machine. -/
def run (frames : List Frame) (want : Expecting) : List Lexeme → Scan
  | [] => ⟨unwind (.broken (endFault want)) (endFault want) frames, false⟩
  | l :: ls =>
    match step frames want l with
    | .go frames want => run frames want ls
    | .finished document => ⟨document, !ls.isEmpty⟩
    | .failed fault => ⟨unwind (.broken fault) fault frames, false⟩

/-- Scans a text. -/
def scan (text : String) : Scan :=
  run [] .value (Lexeme.all text.toList)

/-! ## Reading the whole value -/

mutual

/-- The JSON value of a document; of repeated fields the last one counts. -/
def toJson : Document → Except SyntaxError Json
  | null => .ok .null
  | bool b => .ok (.bool b)
  | number value => value
  | string value => .string <$> value
  | array items => .array <$> itemsToJson items
  | object fields => (fun fields => .object (Assoc.ofList fields)) <$> fieldsToJson fields
  | deep _ => .error .tooDeep
  | broken fault => .error fault.read

/-- The JSON values of a row of documents. -/
def itemsToJson : List Document → Except SyntaxError (List Json)
  | [] => .ok []
  | item :: items => do
    let value ← toJson item
    return value :: (← itemsToJson items)

/-- The JSON values of a row of fields. -/
def fieldsToJson :
    List (Except SyntaxError String × Document) → Except SyntaxError (List (String × Json))
  | [] => .ok []
  | (key, item) :: fields => do
    let name ← key
    let value ← toJson item
    return (name, value) :: (← fieldsToJson fields)

end

/-! ## Skipping a value -/

mutual

/-- The fault that stops a reader that skips the document. -/
def skipFault? : Document → Option SyntaxError
  | array items => itemsSkipFault? items
  | object fields => fieldsSkipFault? fields
  | deep container => skipFault? container
  | broken fault => some fault.skipped
  | _ => none

/-- The first fault in a row of documents. -/
def itemsSkipFault? : List Document → Option SyntaxError
  | [] => none
  | item :: items => (skipFault? item).or (itemsSkipFault? items)

/-- The first fault in a row of fields. -/
def fieldsSkipFault? : List (Except SyntaxError String × Document) → Option SyntaxError
  | [] => none
  | (_, item) :: fields => (skipFault? item).or (fieldsSkipFault? fields)

end

mutual

/-- A JSON value as a document. -/
def ofJson : Json → Document
  | .null => null
  | .bool b => bool b
  | .int n => number (.ok (.int n))
  | .float x => number (.ok (.float x))
  | .string s => string (.ok s)
  | .array items => array (itemsOfJson items)
  | .object fields => object (fieldsOfJson fields)

/-- JSON values as documents. -/
def itemsOfJson : List Json → List Document
  | [] => []
  | item :: items => ofJson item :: itemsOfJson items

/-- Fields as fields of a document. -/
def fieldsOfJson : List (String × Json) → List (Except SyntaxError String × Document)
  | [] => []
  | (name, item) :: fields => (.ok name, ofJson item) :: fieldsOfJson fields

end

end Document

/-- Parses a text that holds one JSON value. -/
def parse (text : String) : Except SyntaxError Json := do
  let scan := Document.scan text
  let value ← scan.document.toJson
  if scan.trailing then throw .trailingCharacters
  return value

end Tabula.Json
