import Tabula.Json.Document
import Tabula.Json.Printer
import Tabula.Text.Quoted

/-!
# Decoding records from documents

A decoder reads a document into a domain value or says why it does not fit. Records are described
field by field (`Fields`), and the description gives both the reader and the list of names that
messages show. A record may be written as an object or as an array of its fields in order.

Objections are reported in the order of the text: each field knows the place where it was found,
and of several objections the one with the first place wins.
-/

namespace Tabula.Json

/-! ## Objections -/

/-- Why a document does not decode. -/
inductive DecodeError where
  | fault (cause : SyntaxError)
  | invalidType (found expected : String)
  | invalidValue (found expected : String)
  | invalidLength (count : Nat) (expected : String)
  | missingField (name : String)
  | duplicateField (name : String)
  | unknownField (name : String) (known : List String)
  | unknownVariant (name : String) (known : List String)
  | noAlternative (name : String)
  deriving DecidableEq, Repr

namespace DecodeError

/-- A list of names to choose from. -/
def choice (none : String) (names : List String) : String :=
  match names.map fun name => s!"`{name}`" with
  | [] => none
  | [a] => s!"expected {a}"
  | [a, b] => s!"expected {a} or {b}"
  | quotedNames =>
    let listed := ", ".intercalate quotedNames
    s!"expected one of {listed}"

/-- The wording of an objection. -/
def message : DecodeError → String
  | fault cause => cause.message
  | invalidType found expected => s!"invalid type: {found}, expected {expected}"
  | invalidValue found expected => s!"invalid value: {found}, expected {expected}"
  | invalidLength count expected => s!"invalid length {count}, expected {expected}"
  | missingField name => s!"missing field `{name}`"
  | duplicateField name => s!"duplicate field `{name}`"
  | unknownField name known =>
    let expected := choice "there are no fields" known
    s!"unknown field `{name}`, {expected}"
  | unknownVariant name known =>
    let expected := choice "there are no variants" known
    s!"unknown variant `{name}`, {expected}"
  | noAlternative name => s!"data did not match any variant of untagged enum {name}"

end DecodeError

/-! ## Decoders -/

/-- Where a document comes from: a text that is being scanned, or a finished value. The two differ
in how they object to surplus entries and to misplaced kinds. -/
inductive Origin where
  | text
  | value
  deriving DecidableEq, Repr

/-- Reads a document of either origin. -/
abbrev Decoder (α : Type) := Origin → Document → Except DecodeError α

namespace Decoder

variable {α β : Type}

/-- The objection to a document of the wrong kind. -/
def mismatch (expected : String) : Document → DecodeError
  | .null => .invalidType "null" expected
  | .bool b => .invalidType s!"boolean `{b}`" expected
  | .number (.ok (.int n)) => .invalidType s!"integer `{n}`" expected
  | .number (.ok (.float x)) =>
    let shown := floatText x
    .invalidType s!"floating point `{shown}`" expected
  | .number (.ok _) => .invalidType "number" expected
  | .number (.error e) => .fault e
  | .string (.ok s) => .invalidType ("string " ++ Text.quoted s) expected
  | .string (.error e) => .fault e
  | .array _ => .invalidType "sequence" expected
  | .object _ => .invalidType "map" expected
  | .deep container => mismatch expected container
  | .broken f => .fault f.read

/-- What the first alternative that fits a document reads from it. -/
def firstOf? (alternatives : List (Decoder α)) (document : Document) : Option α :=
  alternatives.findSome? fun d => (d .value document).toOption

/-- Applies a function to what is read. -/
def map (f : α → β) (d : Decoder α) : Decoder β :=
  fun origin document => f <$> d origin document

/-- Reads any JSON value. -/
def json : Decoder Json
  | _, document => document.toJson.mapError .fault

/-- Reads a string. -/
def string : Decoder String
  | _, .string (.ok s) => .ok s
  | _, document => .error (mismatch "a string" document)

/-- Reads a truth value. -/
def boolean : Decoder Bool
  | _, .bool b => .ok b
  | _, document => .error (mismatch "a boolean" document)

/-- Reads a whole number from `0` to `2 ^ 64 - 1`. -/
def natural : Decoder Nat
  | _, .number (.ok (.int n)) =>
    if n < 0 then .error (.invalidValue s!"integer `{n}`" "u64") else .ok n.toNat
  | _, document => .error (mismatch "u64" document)

/-- Reads a whole number of 64 bits. -/
def integer : Decoder Int64
  | _, .number (.ok (.int n)) =>
    if Int64.minValue.toInt ≤ n && n ≤ Int64.maxValue.toInt then .ok (Int64.ofInt n)
    else .error (.invalidValue s!"integer `{n}`" "i64")
  | _, document => .error (mismatch "i64" document)

/-- Reads a number as a float, a whole number as the nearest one. -/
def real : Decoder Float
  | _, .number (.ok (.int n)) => .ok (if 0 ≤ n then n.toNat.toUInt64.toFloat else Float.ofInt n)
  | _, .number (.ok (.float x)) => .ok x
  | _, document => .error (mismatch "f64" document)

/-- Reads nothing from null. -/
def unit : Decoder Unit
  | _, .null => .ok ()
  | _, document => .error (mismatch "unit" document)

/-- Reads null as nothing. -/
def optional (d : Decoder α) : Decoder (Option α)
  | _, .null => .ok none
  | _, .broken ⟨read, _, _, .null⟩ => .error (.fault read)
  | origin, document => some <$> d origin document

/-- Reads an array item by item. -/
def list (d : Decoder α) : Decoder (List α)
  | origin, .array items => items.mapM (d origin)
  | _, .deep (.array _) => .error (.fault .tooDeep)
  | _, document => .error (mismatch "a sequence" document)

/-- Reads an object as entries by key. -/
def assoc (d : Decoder α) : Decoder (Assoc α)
  | origin, .object fields =>
    Assoc.ofList <$> fields.mapM fun (key, item) => do
      let name ← key.mapError .fault
      return (name, ← d origin item)
  | _, .deep (.object _) => .error (.fault .tooDeep)
  | _, document => .error (mismatch "a map" document)

/-- The objection to the first surplus item of an array of fixed length. -/
def surplusItem (origin : Origin) (count : Nat) (item : Document) : DecodeError :=
  match origin, item with
  | .text, .broken f => .fault f.ending
  | .text, _ => .fault .trailingCharacters
  | .value, _ => .invalidLength count "fewer elements in array"

/-- Reads an array of two items. -/
def pair (first : Decoder α) (second : Decoder β) : Decoder (α × β)
  | origin, .array items =>
    match items with
    | [] => .error (.invalidLength 0 "a tuple of size 2")
    | a :: rest => do
      let a ← first origin a
      match rest with
      | [] => throw (.invalidLength 1 "a tuple of size 2")
      | b :: rest =>
        let b ← second origin b
        match rest with
        | [] => return (a, b)
        | item :: _ => throw (surplusItem origin items.length item)
  | _, .deep (.array _) => .error (.fault .tooDeep)
  | _, document => .error (mismatch "a tuple of size 2" document)

end Decoder

/-! ## Names and variants -/

/-- The name of a field or variant, with further spellings that are understood. -/
structure Name where
  name : String
  aliases : List String := []
  deriving DecidableEq, Repr

/-- All spellings in ascending order. -/
def Name.spellings (n : Name) : List String :=
  (n.name :: n.aliases).mergeSort fun a b => !(decide (b < a))

/-- What a variant carries. -/
inductive Payload (α : Type) where
  | nothing (a : α)
  | one (d : Decoder α)

namespace Decoder

variable {α : Type}

/-- The variant of a name. -/
def chosen (variants : List (Name × Payload α)) (name : String) :
    Except DecodeError (Payload α) :=
  match variants.find? fun v => v.1.spellings.contains name with
  | some (_, payload) => .ok payload
  | none => .error (.unknownVariant name (variants.flatMap fun v => v.1.spellings))

/-- Reads what a variant carries. -/
def payload (origin : Origin) (content : Document) : Payload α → Except DecodeError α
  | .nothing a => (fun _ => a) <$> unit origin content
  | .one d => d origin content

/-- How a fault reads where a tagged value should begin: numbers and words are not looked at. -/
def tagFault (f : Fault) : SyntaxError :=
  match f.opening with
  | .other => f.read
  | _ => .expectedValue

/-- The objection to what follows the entry of a tagged value. -/
def surplusEntry : Except SyntaxError String × Document → DecodeError
  | (.error _, .broken f) => .fault f.ending
  | _ => .fault .expectedValue

/-- Reads one of several variants: the name alone, or an object with the name as its only key. -/
def variant (variants : List (Name × Payload α)) : Decoder α
  | _, .string (.ok name) => do
    match ← chosen variants name with
    | .nothing a => return a
    | .one _ => throw (.invalidType "unit variant" "newtype variant")
  | .value, .object [(.ok name, content)] => do
    payload .value content (← chosen variants name)
  | .value, .object _ => .error (.invalidValue "map" "map with a single key")
  | .value, document => .error (mismatch "string or map" document)
  | .text, .object [] => .error (.fault .expectedValue)
  | .text, .object ((.error e, _) :: _) => .error (.fault e)
  | .text, .object ((.ok name, content) :: rest) => do
    let a ← payload .text content (← chosen variants name)
    match rest with
    | [] => return a
    | entry :: _ => throw (surplusEntry entry)
  | .text, .string (.error e) => .error (.fault e)
  | .text, .broken f => .error (.fault (tagFault f))
  | .text, .deep (.object _) => .error (.fault .tooDeep)
  | .text, _ => .error (.fault .expectedValue)

end Decoder

/-! ## Records -/

/-- Where a field of a record is: at a place of the document, or nowhere, with the objection that
its absence would raise and the place of that objection. -/
inductive Slot where
  | found (place : Nat) (item : Document)
  | absent (place : Nat) (objection : DecodeError)

/-- A description of some fields of a record: their names in order, and how to read them from as
many slots. A failure has the place of its objection. -/
structure Fields (α : Type) where
  names : List Name
  read : Origin → List Slot → Except (Nat × DecodeError) α

namespace Fields

variable {α β : Type}

/-- Of two objections the one with the first place. -/
def earlier (a b : Nat × DecodeError) : Nat × DecodeError :=
  if b.1 < a.1 then b else a

/-- Fields side by side. -/
def both (f : Fields (α → β)) (g : Fields α) : Fields β where
  names := f.names ++ g.names
  read origin slots :=
    match f.read origin (slots.take f.names.length), g.read origin (slots.drop f.names.length) with
    | .ok h, .ok a => .ok (h a)
    | .error e, .ok _ => .error e
    | .ok _, .error e => .error e
    | .error e, .error e' => .error (earlier e e')

instance : Applicative Fields where
  pure a := ⟨[], fun _ _ => .ok a⟩
  seq f g := both f (g ())

/-- One field, with what its absence means. -/
def single (name : Name) (d : Decoder α) (absent : Option α) : Fields α where
  names := [name]
  read origin
    | .found place item :: _ => (d origin item).mapError fun e => (place, e)
    | .absent place objection :: _ =>
      match absent with
      | some a => .ok a
      | none => .error (place, objection)
    | [] => .error (0, .missingField name.name)

/-- A field that has to be there. -/
def required (name : Name) (d : Decoder α) : Fields α := single name d none

/-- A field that may be left out. -/
def orElse (name : Name) (d : Decoder α) (default : α) : Fields α := single name d (some default)

/-- A field that may be left out or null. -/
def optional (name : Name) (d : Decoder α) : Fields (Option α) :=
  single name (Decoder.optional d) (some none)

/-- The entries of an object sorted out by field; the walk stops at the first entry that cannot
stand where it does. -/
def arrange (names : List Name) (closed : Bool) :
    Nat → List (Except SyntaxError String × Document) → List (Option (Nat × Document)) →
    List (Option (Nat × Document)) × Option (Nat × DecodeError)
  | _, [], found => (found, none)
  | place, (.error e, _) :: _, found => (found, some (place, .fault e))
  | place, (.ok key, item) :: rest, found =>
    match names.findIdx? fun name => name.spellings.contains key with
    | none =>
      if closed then
        (found, some (place, .unknownField key (names.flatMap Name.spellings)))
      else
        match item.skipFault? with
        | some e => (found, some (place, .fault e))
        | none => arrange names closed (place + 1) rest found
    | some i =>
      match found[i]? with
      | some (some _) =>
        (found, some (place, .duplicateField ((names[i]?.map Name.name).getD key)))
      | _ => arrange names closed (place + 1) rest (found.set i (some (place, item)))

/-- The slots of a record written as an object, and an objection to the object itself. -/
def namedSlots (names : List Name) (closed : Bool)
    (entries : List (Except SyntaxError String × Document)) :
    List Slot × Option (Nat × DecodeError) :=
  let (found, stop) := arrange names closed 0 entries (names.map fun _ => none)
  let slots := (names.zip found).zipIdx.map fun ((name, item?), i) =>
    match item? with
    | some (place, item) => Slot.found place item
    | none => Slot.absent (entries.length + i) (.missingField name.name)
  (slots, stop)

/-- How many elements a record has, in words. -/
def arity (record : String) (names : List Name) : String :=
  let count := names.length
  if count = 1 then s!"struct {record} with 1 element"
  else s!"struct {record} with {count} elements"

/-- The slots of a record written as an array, and an objection to surplus items. -/
def positionalSlots (record : String) (names : List Name) (origin : Origin)
    (items : List Document) : List Slot × Option (Nat × DecodeError) :=
  let slots := names.zipIdx.map fun (_, i) =>
    match items[i]? with
    | some item => Slot.found i item
    | none => Slot.absent i (.invalidLength i (arity record names))
  let stop := items[names.length]?.map fun item =>
    (names.length, Decoder.surplusItem origin items.length item)
  (slots, stop)

/-- What the fields read, unless something else is objected to before. -/
def settle (result : Except (Nat × DecodeError) α) (stop : Option (Nat × DecodeError)) :
    Except DecodeError α :=
  match result, stop with
  | .ok a, none => .ok a
  | .ok _, some e => .error e.2
  | .error e, none => .error e.2
  | .error e, some e' => .error (earlier e' e).2

/-- Reads a record. A closed record admits no other fields. -/
def record (name : String) (closed : Bool) (fields : Fields α) : Decoder α
  | origin, .object entries =>
    let (slots, stop) := namedSlots fields.names closed entries
    settle (fields.read origin slots) stop
  | origin, .array items =>
    let (slots, stop) := positionalSlots name fields.names origin items
    settle (fields.read origin slots) stop
  | _, .deep _ => .error (.fault .tooDeep)
  | _, document => .error (Decoder.mismatch s!"struct {name}" document)

end Fields

/-! ## Whole texts and values -/

namespace Decoder

variable {α : Type}

/-- Decodes a text that holds one value. -/
def ofText (d : Decoder α) (text : String) : Except DecodeError α := do
  let scan := Document.scan text
  let a ← d .text scan.document
  if scan.trailing then throw (.fault .trailingCharacters)
  return a

/-- Decodes a finished value. -/
def ofJson (d : Decoder α) (value : Json) : Except DecodeError α :=
  d .value (.ofJson value)

end Decoder

end Tabula.Json
