import Tabula.Database.Location

/-!
# Media

What the path of a location leads to: a file, or memory. A path that starts with `file:` is an
address: an authority, a path and options, each with some characters written as `%` and two
hexadecimal digits. The options say whether the file may be made and changed.
-/

namespace Tabula

/-- Where a database is kept and what may be done there. -/
structure Medium where
  /-- The file; `none` for memory. -/
  file : Option String
  /-- Whether a file may be made. -/
  mayCreate : Bool := true
  mayWrite : Bool := true
  deriving DecidableEq, Repr

namespace Medium

/-! ## Written characters -/

/-- The value of a hexadecimal digit. -/
def hexValue? (c : Char) : Option Nat :=
  if c.isDigit then some (c.toNat - '0'.toNat)
  else if 'a' ≤ c && c ≤ 'f' then some (10 + c.toNat - 'a'.toNat)
  else if 'A' ≤ c && c ≤ 'F' then some (10 + c.toNat - 'A'.toNat)
  else none

/-- The byte that two hexadecimal digits stand for. -/
def byte? (a b : Char) : Option UInt8 := do
  return UInt8.ofNat (16 * (← hexValue? a) + (← hexValue? b))

/-- The bytes that characters stand for. A zero byte that is written as two digits ends them. -/
def decode : List Char → List UInt8
  | '%' :: a :: b :: rest =>
    match byte? a b with
    | some 0 => []
    | some byte => byte :: decode rest
    | none => '%'.toString.toUTF8.toList ++ decode (a :: b :: rest)
  | c :: rest => c.toString.toUTF8.toList ++ decode rest
  | [] => []

/-- The text that characters stand for; characters that stand for no text are taken as they are. -/
def decodeText (cs : List Char) : String :=
  (String.fromUTF8? ⟨(decode cs).toArray⟩).getD (String.ofList cs)

/-! ## Addresses -/

/-- A text cut at the first of a character, which is in neither part. -/
def cut (mark : Char) (cs : List Char) : List Char × List Char :=
  (cs.takeWhile (· ≠ mark), (cs.dropWhile (· ≠ mark)).drop 1)

/-- An address without its authority, which must be empty or the machine itself. -/
def withoutAuthority? : List Char → Option (List Char)
  | '/' :: '/' :: cs =>
    let authority := String.ofList (cs.takeWhile (· ≠ '/'))
    if authority = "" || authority = "localhost" then some (cs.dropWhile (· ≠ '/')) else none
  | cs => some cs

/-- The options of an address, names with values, in order; an option without a name is none. -/
def options (cs : List Char) : List (String × String) :=
  (cs.splitOn '&').filterMap fun item =>
    let (name, value) := cut '=' item
    let name := decodeText name
    if name = "" then none else some (name, decodeText value)

/-! ## Options -/

/-- How a database may be used. -/
inductive Mode where
  | readOnly
  /-- A file that is there may be changed. -/
  | existing
  /-- A file may be made. -/
  | creating
  | memory
  deriving DecidableEq, Repr

namespace Mode

/-- All modes with their names, each allowing what those before it allow. -/
def names : List (String × Mode) :=
  [("ro", readOnly), ("rw", existing), ("rwc", creating), ("memory", memory)]

/-- The rank of a mode by what it allows. -/
def rank (m : Mode) : Nat := (names.findIdx? fun (_, other) => other = m).getD 0

/-- The mode that is asked for by name where another one is allowed. -/
def choose? (allowed : Mode) (name : String) : Option Mode := do
  let m ← names.lookup name
  if m = memory || m.rank ≤ allowed.rank then some m else none

end Mode

/-- The ways to reach files, and the one that only reaches memory. -/
def fileSystems : List String := ["unix", "unix-none", "unix-dotfile", "unix-excl"]

/-- The name of the way that reaches memory. -/
def memorySystem : String := "memdb"

/-- What the options of an address ask for. -/
structure Wishes where
  mode : Mode := .creating
  system : String := "unix"
  /-- Whether the file is said never to change. -/
  isImmutable : Option Bool := none

/-- Whether the value of an option means yes: a word, or a number whose last eight bits are not all
zero. -/
def isYes (value : String) : Bool :=
  let digits := value.toList.takeWhile Char.isDigit
  if digits.isEmpty then ["yes", "on", "true"].contains value.toLower
  else digits.foldl (fun n c => 10 * n + (c.toNat - '0'.toNat)) 0 % 256 ≠ 0

/-- Takes an option into account; some values are refused. -/
def Wishes.add? (w : Wishes) : String × String → Option Wishes
  | ("mode", value) => do return { w with mode := ← w.mode.choose? value }
  | ("cache", value) => if value = "shared" || value = "private" then some w else none
  | ("vfs", value) => some { w with system := value }
  | ("immutable", value) => some { w with isImmutable := w.isImmutable.or (some (isYes value)) }
  | _ => some w

/-- The medium of a path and what is wished for. -/
def ofWishes? (path : String) (w : Wishes) : Option Medium :=
  let inMemory := w.mode = .memory || w.system = memorySystem || path = "" || path = ":memory:"
  if w.system ≠ memorySystem && !fileSystems.contains w.system then none
  else if inMemory then some { file := none, mayWrite := w.mode ≠ .readOnly }
  else
    some {
      file := some path
      mayCreate := w.mode = .creating
      mayWrite := w.mode ≠ .readOnly && w.isImmutable ≠ some true }

/-- The medium of an address without its first word. -/
def ofAddress? (cs : List Char) : Option Medium := do
  let cs ← withoutAuthority? cs
  let (path, rest) := cut '?' (cs.takeWhile (· ≠ '#'))
  let wishes ← (options rest).foldlM Wishes.add? {}
  ofWishes? (decodeText path) wishes

/-- What an address starts with. -/
def addressMark : String := "file:"

/-- The medium of a path. A path with a zero character leads nowhere. -/
def ofPath? (path : String) : Option Medium :=
  if path.toList.contains '\x00' then none
  else if addressMark.isPrefixOf path then ofAddress? (path.toList.drop addressMark.length)
  else ofWishes? path {}

end Medium

/-- The medium of a configuration. -/
def Configuration.medium? (c : Configuration) : Option Medium :=
  match c.path with
  | none => some { file := none }
  | some path => Medium.ofPath? path

end Tabula
