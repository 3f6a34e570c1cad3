import Std.Time.DateTime.Timestamp
import Tabula.CommandLine.Program

/-!
# Entry point

Runs the program on the arguments of the process and the files of the machine.
-/

namespace Tabula.CommandLine

/-- The number of an error of the system. -/
def numberOf? : IO.Error → Option UInt32
  | .noFileOrDirectory _ n _ | .permissionDenied _ n _ | .inappropriateType _ n _
  | .invalidArgument _ n _ | .resourceExhausted _ n _ => some n
  | .otherError n _ => some n
  | _ => none

/-- The fault that an error of the system is. -/
def faultOf (e : IO.Error) : Fault :=
  ((numberOf? e).bind fun n => Fault.ofNumber? n.toNat).getD (.other (toString e))

/-- What an action gives, or the fault by which it fails. -/
def attempt {α : Type} (action : IO α) : IO (Except Fault α) := do
  try return .ok (← action)
  catch e => return .error (faultOf e)

/-- The bytes of a database file, which may be made if there is none. -/
def openFile (path : String) (mayCreate : Bool) : IO (Option ByteArray) := do
  let opening := do
    if mayCreate then IO.FS.withFile path .append fun _ => return
    IO.FS.readBinFile path
  return (← attempt opening).toOption

/-- Random bits to start from. -/
def drawEntropy : IO Entropy := do
  let bytes ← IO.getRandomBytes 8
  return ⟨bytes.foldl (fun state byte => state * 256 + byte.toUInt64) 0⟩

/-- The machine as a host. -/
def machine : Host IO where
  readFile path := attempt (IO.FS.readBinFile path)
  readInput := do attempt (← IO.getStdin).readBinToEnd
  openDatabase := openFile
  writeDatabase path bytes := IO.FS.writeBinFile path bytes
  entropy := drawEntropy
  now := return Int64.ofInt (← Std.Time.Timestamp.now).toSecondsSinceUnixEpoch.val

end Tabula.CommandLine

open Tabula.CommandLine in
/-- Runs the program on the arguments of the process. -/
def main (arguments : List String) : IO UInt32 := do
  let outcome ← run machine arguments
  (← IO.getStdout).putStr outcome.output
  (← IO.getStderr).putStr outcome.errors
  return UInt32.ofNat outcome.status
