import Tabula.Report.Format

/-!
# Arguments

The options and subcommands of the command line. An option may stand before or after the
subcommand, once in each place; of two settings the one after the subcommand counts.
-/

namespace Tabula.CommandLine

/-- What the program is asked to do. -/
inductive Action where
  | tables
  | schema
  | exec (input : String)
  deriving DecidableEq, Repr

/-- The settings that options make in one place; what is not given is `none`. -/
structure Settings where
  uri : Option String := none
  schema : Option String := none
  makesKeys : Option Bool := none
  keyBits : Option Nat := none
  format : Option Format := none
  deriving Repr

/-- The settings of a run. -/
structure Arguments where
  uri : String
  schema : Option String
  makesKeys : Bool
  keyBits : Nat
  format : Format
  action : Action
  deriving Repr

/-- What a row of arguments means. -/
inductive Invocation where
  | run (a : Arguments)
  | help
  | version
  | misuse
  deriving Repr

/-! ## Options -/

/-- A width in bits: a whole number of at most 32 bits, with or without a sign. -/
def bits? (s : String) : Option Nat := do
  let digits := match s.toList with
    | '+' :: cs => cs
    | '-' :: cs => if cs.all (· = '0') then cs else []
    | cs => cs
  if digits.isEmpty || !digits.all Char.isDigit then none
  else
    let n := digits.foldl (fun n c => 10 * n + (c.toNat - '0'.toNat)) 0
    if n < UInt32.size then some n else none

/-- Sets an option that has not been set in the same place. -/
def Settings.set? (s : Settings) (option value : String) : Option Settings :=
  match option with
  | "uri" => if s.uri.isNone then some { s with uri := some value } else none
  | "schema" => if s.schema.isNone && value ≠ "" then some { s with schema := some value } else none
  | "id-bits" => do
    let n ← bits? value
    if s.keyBits.isNone then some { s with keyBits := some n } else none
  | "format" => do
    let f ← Format.ofName? value
    if s.format.isNone then some { s with format := some f } else none
  | _ => none

/-- Settings with others after them. -/
def Settings.overriddenBy (a b : Settings) : Settings where
  uri := b.uri.or a.uri
  schema := b.schema.or a.schema
  makesKeys := b.makesKeys.or a.makesKeys
  keyBits := b.keyBits.or a.keyBits
  format := b.format.or a.format

/-- The settings of a run, with defaults for what is not given. -/
def Settings.toArguments (s : Settings) (action : Action) : Arguments where
  uri := s.uri.getD Configuration.scheme
  schema := s.schema
  makesKeys := s.makesKeys.getD false
  keyBits := s.keyBits.getD KeyStrategy.maxBits
  format := s.format.getD .table
  action := action

/-! ## Words -/

/-- The kind of one argument. -/
inductive Word where
  | escape
  | option (name : String) (value : Option String)
  | short (letter : Char)
  | plain (s : String)

/-- Tells what kind an argument is. A lone dash is a plain word. -/
def Word.ofString (s : String) : Word :=
  match s.toList with
  | ['-', '-'] => .escape
  | '-' :: '-' :: cs =>
    let name := String.ofList (cs.takeWhile (· ≠ '='))
    match cs.dropWhile (· ≠ '=') with
    | [] => .option name none
    | _ :: value => .option name (some (String.ofList value))
  | '-' :: c :: _ => .short c
  | _ => .plain s

/-- Where the reader of arguments is: before the subcommand, or after it with the words given so
far. -/
inductive Position where
  | top
  | after (subcommand : String) (operands : List String)

/-- The subcommands, with the count of their operands. -/
def subcommands : List (String × Nat) := [("tables", 0), ("schema", 0), ("exec", 1)]

/-- The action of a subcommand with its operands. -/
def actionOf? : String → List String → Option Action
  | "tables", [] => some .tables
  | "schema", [] => some .schema
  | "exec", [input] => some (.exec input)
  | _, _ => none

/-- The meaning of arguments that were read to the end. -/
def finish (outer inner : Settings) : Position → Invocation
  | .top => .misuse
  | .after subcommand operands =>
    match actionOf? subcommand operands with
    | some action => .run ((outer.overriddenBy inner).toArguments action)
    | none => .misuse

/-- The place after a plain word, if it may stand there. -/
def takeWord? (s : String) : Position → Option Position
  | .top => if (subcommands.lookup s).isSome then some (.after s []) else none
  | .after subcommand operands =>
    if operands.length < (subcommands.lookup subcommand).getD 0 then
      some (.after subcommand (operands ++ [s]))
    else none

/-- Whether help or the version is asked for; only the program as a whole has a version. -/
def special? (name : String) : Position → Option Invocation
  | .top => if name = "help" then some .help else if name = "version" then some .version else none
  | .after _ _ => if name = "help" then some .help else none

/-- The words after the word that asks for help: at most one, which names what help is about. -/
def readTopic : List String → Invocation
  | [] => .help
  | [topic] => if topic = "help" || (subcommands.lookup topic).isSome then .help else .misuse
  | _ => .misuse

/-- Reads the words after a double dash. -/
def readOperands (outer inner : Settings) (position : Position) : List String → Invocation
  | [] => finish outer inner position
  | s :: rest =>
    match position, takeWord? s position with
    | .after _ _, some next => readOperands outer inner next rest
    | _, _ => .misuse

/-- Reads arguments: `outer` holds the settings before the subcommand, `inner` those after it. -/
def read (outer inner : Settings) (position : Position) : List String → Invocation
  | [] => finish outer inner position
  | s :: rest =>
    let store (settings : Settings) : Settings × Settings :=
      match position with
      | .top => (settings, inner)
      | .after _ _ => (outer, settings)
    let current := match position with
      | .top => outer
      | .after _ _ => inner
    match Word.ofString s with
    | .escape => readOperands outer inner position rest
    | .short 'h' => (special? "help" position).getD .misuse
    | .short 'V' => (special? "version" position).getD .misuse
    | .short _ => .misuse
    | .plain s =>
      match position, s with
      | .top, "help" => readTopic rest
      | _, _ =>
        match takeWord? s position with
        | some next => read outer inner next rest
        | none => .misuse
    | .option "ids" none =>
      if current.makesKeys.isNone then
        let (outer, inner) := store { current with makesKeys := some true }
        read outer inner position rest
      else .misuse
    | .option name (some value) =>
      match current.set? name value with
      | some settings =>
        let (outer, inner) := store settings
        read outer inner position rest
      | none => .misuse
    | .option name none =>
      match special? name position with
      | some invocation => invocation
      | none =>
        match rest with
        | [] => .misuse
        | value :: rest =>
          match Word.ofString value, current.set? name value with
          | .plain _, some settings =>
            let (outer, inner) := store settings
            read outer inner position rest
          | _, _ => .misuse

/-- The meaning of a row of arguments. -/
def Invocation.ofArguments (arguments : List String) : Invocation :=
  read {} {} .top arguments

end Tabula.CommandLine
