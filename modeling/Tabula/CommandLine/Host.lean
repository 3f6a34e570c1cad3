import Tabula.Database.Key

/-!
# Hosts

What a program finds around it: files, an input, random bits and the time. A program that is
written for any host can be run on the files of a machine or on files that are values.
-/

namespace Tabula.CommandLine

/-- Why a file cannot be read. -/
inductive Fault where
  | notFound
  | denied
  | notDirectory
  | isDirectory
  | nameTooLong
  /-- The bytes are no text. -/
  | notText
  | other (description : String)
  deriving DecidableEq, Repr

namespace Fault

/-- The faults that have a number, with it and with their description. -/
def numbered : List (Nat × Fault × String) :=
  [(2, notFound, "No such file or directory"), (13, denied, "Permission denied"),
    (20, notDirectory, "Not a directory"), (21, isDirectory, "Is a directory"),
    (36, nameTooLong, "File name too long")]

/-- The fault of a number. -/
def ofNumber? (n : Nat) : Option Fault := (numbered.lookup n).map (·.1)

/-- The wording of a fault. -/
def reason : Fault → String
  | notText => "stream did not contain valid UTF-8"
  | other description => description
  | fault =>
    match numbered.find? fun entry => entry.2.1 = fault with
    | some (n, _, description) => s!"{description} (os error {n})"
    | none => ""

end Fault

/-- What a program finds around it. -/
structure Host (m : Type → Type) where
  /-- The bytes of a file. -/
  readFile : String → m (Except Fault ByteArray)
  /-- The bytes of the standard input. -/
  readInput : m (Except Fault ByteArray)
  /-- The bytes of a database file, which may be made if there is none; `none` if it cannot be
  opened. -/
  openDatabase : String → Bool → m (Option ByteArray)
  /-- Replaces the bytes of a database file. -/
  writeDatabase : String → ByteArray → m Unit
  entropy : m Entropy
  now : m Int64

/-- The text that bytes are. -/
def textOfBytes (bytes : ByteArray) : Except Fault String :=
  match String.fromUTF8? bytes with
  | some text => .ok text
  | none => .error .notText

end Tabula.CommandLine
