import ScriptLink.CommandLine.Usage

/-!
# The program's arguments

The levels of the program and what is read from them. Two switches can be given at both
levels; of two values for the settings the one behind the command counts.
-/

namespace ScriptLink.CommandLine

/-- What the program is to do. -/
inductive Command where
  | tokens (file : String) (all : Bool)
  | transpile (files : List String) (json : Bool)
  | trace (entry : String) (root : Option String)
  | console
  deriving DecidableEq, Repr

/-- The arguments of the program. -/
structure Arguments where
  verbose : Bool
  /-- the file with the settings -/
  config : Option String
  command : Option Command
  deriving DecidableEq, Repr

/-! ## Levels -/

/-- The switches of every level. -/
def sharedSwitches : List Switch :=
  [⟨"verbose", some 'v', .verbose⟩, ⟨"config", some 'c', .config⟩, ⟨"help", some 'h', .help⟩,
    ⟨"version", some 'V', .version⟩]

/-- The level of the program itself. -/
def programLevel : Level :=
  ⟨sharedSwitches, none,
    [("tokens", .tokens), ("tok", .tokens), ("transpile", .transpile), ("t", .transpile),
      ("trace", .trace), ("repl", .console), ("help", .help)]⟩

/-- The level of a command. -/
def CommandName.level : CommandName → Level
  | tokens => ⟨⟨"all", none, .all⟩ :: sharedSwitches, some .file, []⟩
  | transpile => ⟨⟨"json", none, .json⟩ :: sharedSwitches, some .files, []⟩
  | trace => ⟨⟨"root", some 'r', .root⟩ :: sharedSwitches, some .entry, []⟩
  | console | help => ⟨sharedSwitches, none, []⟩

/-- Whether the values that a level needs have been given. -/
def Level.isSatisfied (level : Level) (scan : Scan) : Bool := level.positional.all scan.isGiven

/-- The command that the values at its level make. -/
def CommandName.command (name : CommandName) (scan : Scan) : Command :=
  match name with
  | tokens => .tokens ((scan.values .file).headD "") (scan.isGiven .all)
  | transpile => .transpile (scan.values .files) (scan.isGiven .json)
  | trace => .trace ((scan.values .entry).headD "") (scan.values .root).head?
  | console | help => .console

/-- Reads the words behind the name of a command. -/
def CommandName.read (name : CommandName) (words : List String) : Except UsageError Scan := do
  let (scan, _) ← name.level.scan .empty false words
  let scan ← scan.settle
  if name.level.isSatisfied scan then pure scan else throw .missingRequiredArgument

/-- Reads a command line. The words behind the name of a command are read before the last
value in front of it is looked at. -/
def Arguments.ofWords (words : List String) : Except UsageError Arguments := do
  match ← programLevel.scan .empty false words with
  | (scan, none) =>
    let scan ← scan.settle
    pure ⟨scan.isGiven .verbose, (scan.values .config).head?, none⟩
  | (before, some (name, rest)) =>
    let scan ← name.read rest
    let before ← before.settle
    pure ⟨before.isGiven .verbose || scan.isGiven .verbose,
      (scan.values .config).head?.or (before.values .config).head?, some (name.command scan)⟩

end ScriptLink.CommandLine
