import Tabula.CommandLine.Host

/-!
# Files as values

Files by the names on the way to them, and the rules by which a path leads to one: each name but the
last must be that of a directory.
-/

namespace Tabula.CommandLine

/-- Some files and directories. -/
structure Files where
  /-- Where paths start that do not start at the top. -/
  home : List String
  directories : List (List String)
  contents : List (List String × ByteArray)

namespace Files

/-- The longest name, in bytes. -/
def maxName : Nat := 255

/-- The longest path, in bytes. -/
def maxPath : Nat := 4095

/-- Whether some names lead to a directory. -/
def isDirectory (fs : Files) (names : List String) : Bool :=
  names.isEmpty || fs.directories.any names.isPrefixOf
    || fs.contents.any fun (other, _) => names.isPrefixOf other && names.length < other.length

/-- The bytes of the file that some names lead to. -/
def bytes? (fs : Files) (names : List String) : Option ByteArray := fs.contents.lookup names

/-- The names of a path. -/
def names (path : String) : List String := path.splitOn "/"

/-- Where a path starts. -/
def start (fs : Files) (path : String) : List String :=
  if "/".isPrefixOf path then [] else fs.home

/-- Follows names from a directory to a directory or a file. -/
def follow (fs : Files) (directory : List String) : List String → Except Fault (List String)
  | [] => .ok directory
  | name :: rest =>
    let next := directory ++ [name]
    if name = "" || name = "." then follow fs directory rest
    else if name = ".." then follow fs directory.dropLast rest
    else if maxName < name.utf8ByteSize then .error .nameTooLong
    else if fs.isDirectory next then follow fs next rest
    else if (fs.bytes? next).isNone then .error .notFound
    else if rest.isEmpty then .ok next
    else .error .notDirectory

/-- The bytes of the file that a path leads to. -/
def read (fs : Files) (path : String) : Except Fault ByteArray := do
  if path = "" then throw .notFound
  if maxPath < path.utf8ByteSize then throw .nameTooLong
  let found ← fs.follow (fs.start path) (names path)
  match fs.bytes? found with
  | some bytes => return bytes
  | none => throw .isDirectory

/-- The files with one of them changed or added. -/
def write (fs : Files) (names : List String) (bytes : ByteArray) : Files :=
  { fs with contents := (names, bytes) :: fs.contents.filter fun (other, _) => other ≠ names }

/-- Names without those that lead nowhere or back. -/
def straighten : List String → List String → List String
  | done, [] => done
  | done, name :: rest =>
    if name = "" || name = "." then straighten done rest
    else if name = ".." then straighten done.dropLast rest
    else straighten (done ++ [name]) rest

/-- The names that lead to a database file. -/
def databaseNames (fs : Files) (path : String) : List String :=
  straighten (fs.start path) (names path)

/-- The longest name of a database file: a second file beside it has a name that is longer. -/
def maxDatabaseName : Nat := maxName - "-journal".length

/-- The bytes of a database file, which may be made if there is none, and the files afterwards. -/
def openDatabase (fs : Files) (path : String) (mayCreate : Bool) : Option ByteArray × Files :=
  let names := fs.databaseNames path
  match fs.bytes? names, names.getLast? with
  | some bytes, _ => (some bytes, fs)
  | none, none => (none, fs)
  | none, some name =>
    if mayCreate && fs.isDirectory names.dropLast && !fs.isDirectory names
        && name.utf8ByteSize ≤ maxDatabaseName then
      (some .empty, fs.write names .empty)
    else (none, fs)

/-- The files after the bytes of a database file are replaced. -/
def writeDatabase (fs : Files) (path : String) (bytes : ByteArray) : Files :=
  fs.write (fs.databaseNames path) bytes

/-- The host of some files, with an input, random bits and a time. -/
def host (input : ByteArray) (entropy : Entropy) (now : Int64) : Host (StateM Files) where
  readFile path := return (← get).read path
  readInput := return .ok input
  openDatabase path mayCreate := modifyGet fun fs => fs.openDatabase path mayCreate
  writeDatabase path bytes := modify fun fs => fs.writeDatabase path bytes
  entropy := return entropy
  now := return now

end Files

end Tabula.CommandLine
