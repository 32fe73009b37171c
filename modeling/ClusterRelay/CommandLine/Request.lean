import ClusterRelay.Settings.Load

/-!
# Requests

What the words behind the program's name ask for: one of two commands, or help. Each command has
options of its own. An option takes a value, as the word after it or behind an equals sign, and is
given once at most. For an option that is not given there may be a variable of the environment, and
in the end there is a default.

The words are read from left to right, and the first of them that asks for help or makes no sense
decides.
-/

namespace ClusterRelay.CommandLine

/-- What the program can be asked to do. -/
inductive Command where
  /-- Listen at an address for peers that show the credentials. -/
  | receive (address : String) (credentials : Credentials)
  /-- Send the mutations of the input to all links, with the settings in a directory, and wait so
  many seconds for the links to become idle after the input has ended. -/
  | forward (directory : String) (drainSeconds : UInt64)
deriving DecidableEq, Repr

/-- What the words ask for. -/
inductive Request where
  | run (command : Command)
  | help
  | misuse
deriving DecidableEq, Repr

structure Parameter where
  name : String
  /-- The variable of the environment that stands in for the option. -/
  envVar : Option String
  default : String
  admits : String → Bool := fun _ => true

/-- One word of a command line. -/
inductive Word where
  | help
  /-- Two dashes: behind them no word is an option. -/
  | terminator
  /-- An option by name, and the value behind its equals sign. -/
  | long (name : String) (value : Option String)
  /-- An option by one letter, which is not the one that asks for help. -/
  | short
  | plain
deriving DecidableEq, Repr

namespace Word

/-- What kind of word a text is. A single dash is a plain word. -/
def ofText (s : String) : Word :=
  match s.toList with
  | ['-', '-'] => .terminator
  | '-' :: '-' :: cs =>
    let name := String.ofList (cs.takeWhile (· ≠ '='))
    match cs.dropWhile (· ≠ '=') with
    | [] => if name = "help" then .help else .long name none
    | _ :: value => .long name (some (String.ofList value))
  | '-' :: 'h' :: _ => .help
  | '-' :: _ :: _ => .short
  | _ => .plain

end Word

/-- What comes of reading the options of a command. -/
inductive Reading where
  | values (given : List (String × String))
  | help
  | misuse
deriving DecidableEq, Repr

/-- One more option is given. It has to be known, is not given twice, and its value is admitted. -/
def give (ps : List Parameter) (given : List (String × String)) (name value : String) :
    Option (List (String × String)) :=
  match ps.find? (·.name = name) with
  | none => none
  | some p =>
    if (given.lookup name).isSome || !p.admits value then none else some ((name, value) :: given)

/-- Reads the words after the name of a command. -/
def readOptions (ps : List Parameter) (given : List (String × String)) : List String → Reading
  | [] => .values given
  | word :: words =>
    match Word.ofText word with
    | .help => .help
    | .terminator => if words = [] then .values given else .misuse
    | .short | .plain => .misuse
    | .long name (some value) =>
      match give ps given name value with
      | some given => readOptions ps given words
      | none => .misuse
    | .long name none =>
      match words with
      | [] => .misuse
      | value :: words =>
        match Word.ofText value, give ps given name value with
        | .plain, some given => readOptions ps given words
        | _, _ => .misuse

namespace Parameter

/-- The value of an option, unless it has to come from a variable that is not UTF-8. -/
def value? (p : Parameter) (env : Environment) (given : List (String × String)) : Option String :=
  match given.lookup p.name with
  | some value => some value
  | none =>
    match p.envVar.bind (fun name => env.bindings.lookup name) with
    | some raw => String.fromUTF8? raw
    | none => some p.default

/-- The address to listen at. -/
def bind : Parameter := ⟨"bind", some "GRIDWAN_BIND_ADDR", "0.0.0.0:5701", fun _ => true⟩

def groupName : Parameter := ⟨"group-name", some "GRIDWAN_GROUP_NAME", "dev", fun _ => true⟩

def groupPassword : Parameter :=
  ⟨"group-password", some "GRIDWAN_GROUP_PASSWORD", "dev-pass", fun _ => true⟩

def dataDir : Parameter := ⟨"data-dir", some "GRIDWAN_DATA_DIR", "./data", fun _ => true⟩

def seconds? (s : String) : Option Nat := Text.unsigned? (UInt64.size - 1) s.toList

/-- How long to wait for the links after the input has ended. -/
def drainTimeout : Parameter :=
  ⟨"drain-timeout-secs", none, "30", fun s => (seconds? s).isSome⟩

end Parameter

namespace Command

def ofReceiving (env : Environment) (given : List (String × String)) : Option Command := do
  let address ← Parameter.bind.value? env given
  let group ← Parameter.groupName.value? env given
  let password ← Parameter.groupPassword.value? env given
  some (.receive address ⟨group, password⟩)

def ofForwarding (env : Environment) (given : List (String × String)) : Option Command := do
  let directory ← Parameter.dataDir.value? env given
  let seconds ← Parameter.seconds? (← Parameter.drainTimeout.value? env given)
  some (.forward directory (UInt64.ofNat seconds))

end Command

namespace Request

def ofReading (command? : List (String × String) → Option Command) : Reading → Request
  | .help => .help
  | .misuse => .misuse
  | .values given =>
    match command? given with
    | some command => .run command
    | none => .misuse

/-- What the words after `help` ask for: help about at most one of the things there are. -/
def ofHelpTopics (topics : List String) : Request :=
  if topics = [] ∨ topics = ["receive"] ∨ topics = ["forward"] ∨ topics = ["help"] then .help
  else .misuse

/-- What the words behind the program's name ask for. -/
def ofWords (env : Environment) : List String → Request
  | [] => .misuse
  | word :: words =>
    if word = "receive" then
      ofReading (Command.ofReceiving env)
        (readOptions [Parameter.bind, Parameter.groupName, Parameter.groupPassword] [] words)
    else if word = "forward" then
      ofReading (Command.ofForwarding env)
        (readOptions [Parameter.dataDir, Parameter.drainTimeout] [] words)
    else if word = "help" then ofHelpTopics words
    else if Word.ofText word = .help then .help
    else .misuse

end Request

end ClusterRelay.CommandLine
