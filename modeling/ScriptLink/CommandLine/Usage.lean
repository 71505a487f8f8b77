/-!
# Reading a command line

A command line is read level by level: the program's own level, then that of the command it
names. At a level a word is a switch, the value of the switch before it, the name of a
command, or a value without a switch. Switches have a name behind two dashes, and some have
a letter behind one dash; letters can be written together. Two dashes alone end the
switches.

A value is looked at only when the next switch or value comes, or at the end of the level,
which is what decides between two faults in one command line (`Scan.settle`).
-/

namespace ScriptLink.CommandLine

/-- Why a command line is not carried out. Asking for help or for the version is one reason. -/
inductive UsageError where
  | missingRequiredArgument
  | unknownArgument
  | argumentConflict
  | invalidValue
  | tooManyValues
  | invalidSubcommand
  | displayHelp
  | displayVersion
  deriving DecidableEq, Repr

def UsageError.name : UsageError → String
  | missingRequiredArgument => "MissingRequiredArgument"
  | unknownArgument => "UnknownArgument"
  | argumentConflict => "ArgumentConflict"
  | invalidValue => "InvalidValue"
  | tooManyValues => "TooManyValues"
  | invalidSubcommand => "InvalidSubcommand"
  | displayHelp => "DisplayHelp"
  | displayVersion => "DisplayVersion"

/-- What a command line can give. -/
inductive Parameter where
  | verbose
  | config
  | help
  | version
  | all
  | json
  | root
  | file
  | files
  | entry
  deriving DecidableEq, Repr

namespace Parameter

/-- The parameters that stand for themselves and take no value. -/
def isFlag : Parameter → Bool
  | verbose | help | version | all | json => true
  | _ => false

/-- The parameters that can be given several times at one level. -/
def mayRepeat (parameter : Parameter) : Bool := parameter == files

/-- The parameters whose value can be empty; the others are paths. -/
def mayBeEmpty (parameter : Parameter) : Bool := parameter == entry

end Parameter

/-- A way to give a parameter by name. -/
structure Switch where
  name : String
  letter : Option Char
  parameter : Parameter

/-- A command of the program. -/
inductive CommandName where
  | tokens
  | transpile
  | trace
  | console
  | help
  deriving DecidableEq, Repr

/-- What can be given at a level: switches, values without a switch, which all belong to one
parameter, and commands, by their names. -/
structure Level where
  switches : List Switch
  positional : Option Parameter
  commands : List (String × CommandName)

namespace Level

def ofName? (level : Level) (name : String) : Option Parameter :=
  (level.switches.find? (·.name == name)).map (·.parameter)

def ofLetter? (level : Level) (letter : Char) : Option Parameter :=
  (level.switches.find? (·.letter == some letter)).map (·.parameter)

end Level

/-! ## One level -/

/-- What has been given at a level so far. The pending parameter has not been looked at; it
still waits for its value if it has none. -/
structure Scan where
  found : List (Parameter × List String)
  pending : Option (Parameter × List String)
  deriving DecidableEq, Repr

namespace Scan

def empty : Scan := ⟨[], none⟩

/-- Whether a parameter has been given. -/
def isGiven (scan : Scan) (parameter : Parameter) : Bool :=
  scan.found.any (·.1 == parameter)

/-- Whether a parameter has been given or is pending. -/
def isTaken (scan : Scan) (parameter : Parameter) : Bool :=
  scan.isGiven parameter || scan.pending.any (·.1 == parameter)

/-- All values given for a parameter. -/
def values (scan : Scan) (parameter : Parameter) : List String :=
  scan.found.flatMap fun entry => if entry.1 = parameter then entry.2 else []

/-- Whether the next word is the value of the switch before it. -/
def isWaiting (scan : Scan) : Bool := scan.pending.any (·.2.isEmpty)

/-- Takes a parameter with its values, if it may be given and the values are allowed. -/
def accept (scan : Scan) (parameter : Parameter) (values : List String) :
    Except UsageError Scan :=
  if values.isEmpty && !parameter.isFlag then .error .invalidValue
  else if scan.isGiven parameter && !parameter.mayRepeat then .error .argumentConflict
  else if values.contains "" && !parameter.mayBeEmpty then .error .invalidValue
  else .ok { scan with found := scan.found ++ [(parameter, values)] }

/-- Takes the pending parameter. -/
def settle (scan : Scan) : Except UsageError Scan :=
  match scan.pending with
  | none => .ok scan
  | some (parameter, values) => { scan with pending := none }.accept parameter values

/-- Takes a parameter with its values after the pending one. -/
def give (scan : Scan) (parameter : Parameter) (values : List String) :
    Except UsageError Scan := do
  let scan ← scan.settle
  match parameter with
  | .help => throw .displayHelp
  | .version => throw .displayVersion
  | _ => scan.accept parameter values

/-- Makes a parameter the pending one, after the one that was pending before. -/
def await (scan : Scan) (parameter : Parameter) (values : List String) :
    Except UsageError Scan :=
  scan.settle.map fun scan => { scan with pending := some (parameter, values) }

/-- Adds a value to the pending parameter. -/
def fill (scan : Scan) (value : String) : Scan :=
  { scan with
    pending := scan.pending.map fun (parameter, values) => (parameter, values ++ [value]) }

/-- Reads what follows two dashes: a name, and a value if there is an equals sign. -/
def long (level : Level) (scan : Scan) (text : List Char) : Except UsageError Scan :=
  let name := text.takeWhile (· != '=')
  match level.ofName? (String.ofList name), text.drop name.length with
  | none, _ => .error .unknownArgument
  | some parameter, [] =>
    if parameter.isFlag then scan.give parameter [] else scan.await parameter []
  | some parameter, _ :: value =>
    if parameter.isFlag then .error .tooManyValues
    else scan.give parameter [String.ofList value]

/-- Reads what follows one dash: letters up to the first one that takes a value, which is the
rest, or the next word if nothing is left. -/
def short (level : Level) (scan : Scan) : List Char → Except UsageError Scan
  | [] => .ok scan
  | letter :: rest =>
    match level.ofLetter? letter with
    | none => .error .unknownArgument
    | some parameter =>
      if parameter.isFlag then
        match scan.give parameter [] with
        | .ok scan => short level scan rest
        | .error error => .error error
      else
        match rest with
        | [] => scan.await parameter []
        | '=' :: value => scan.give parameter [String.ofList value]
        | value => scan.give parameter [String.ofList value]

/-- Reads a value without a switch. -/
def place (level : Level) (scan : Scan) (escaped : Bool) (word : String) :
    Except UsageError Scan :=
  match level.positional with
  | some parameter =>
    if parameter.mayRepeat then
      if scan.pending.any (·.1 == parameter) then .ok (scan.fill word)
      else scan.await parameter [word]
    else if scan.isTaken parameter then .error .unknownArgument
    else scan.await parameter [word]
  | none =>
    if level.commands.isEmpty || (escaped && (level.commands.lookup word).isSome) then
      .error .unknownArgument
    else .error .invalidSubcommand

/-- Reads a word that names no command; `escaped` holds behind two dashes alone. -/
def word (level : Level) (scan : Scan) (escaped : Bool) (text : String) :
    Except UsageError Scan :=
  match escaped, text.toList with
  | false, '-' :: '-' :: name => scan.long level name
  | false, '-' :: letter :: letters => scan.short level (letter :: letters)
  | _, _ =>
    if !escaped && scan.isWaiting then .ok (scan.fill text) else scan.place level escaped text

end Scan

/-- Asks for help on a command. -/
def Level.help (level : Level) : List String → UsageError
  | [] => .displayHelp
  | [command] => if (level.commands.lookup command).isSome then .displayHelp else .invalidSubcommand
  | _ => .invalidSubcommand

/-- Reads the words of a level, up to the name of a command, which comes with the words behind
it. -/
def Level.scan (level : Level) (scan : Scan) (escaped : Bool) :
    List String → Except UsageError (Scan × Option (CommandName × List String))
  | [] => .ok (scan, none)
  | word :: rest =>
    let command := if escaped || scan.isWaiting then none else level.commands.lookup word
    match command with
    | some .help => .error (level.help rest)
    | some name => .ok (scan, some (name, rest))
    | none =>
      if !escaped && word == "--" then level.scan scan true rest
      else
        match scan.word level escaped word with
        | .ok scan => level.scan scan escaped rest
        | .error error => .error error

end ScriptLink.CommandLine
