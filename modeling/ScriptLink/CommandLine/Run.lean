import ScriptLink.CommandLine.Arguments
import ScriptLink.CommandLine.Settings
import ScriptLink.Content.Script
import ScriptLink.Listing
import ScriptLink.Trace

/-!
# Running a command

What each command prints, and the message with which it fails. The dialogue of the console is
not among them, since it goes on for as long as there is input.
-/

namespace ScriptLink.CommandLine

/-- What a command has printed, and the message of its failure. -/
structure Report where
  output : String
  failure : Option String
  deriving DecidableEq, Repr

namespace Report

def success (output : String) : Report := ⟨output, none⟩

def failed (message : String) : Report := ⟨"", some message⟩

end Report

/-- The text of a file, or the message that it cannot be read. -/
def readFile (path : String) : Reading (Except String String) := do
  pure ((← Reading.file path).mapError fun error =>
    "Failed to read " ++ path ++ ": " ++ error.message)

/-- Lists the tokens of a file. -/
def listTokens (path : String) (all : Bool) : Reading Report := do
  match ← readFile path with
  | .error message => pure (.failed message)
  | .ok source =>
    match tokenLines all source with
    | .ok lines => pure (.success (String.join (lines.map (· ++ "\n"))))
    | .error error => pure (.failed error.message)

/-! ## Rewriting files -/

/-- Rewrites a file. -/
def transpileFile (exportsName path : String) : Reading (Except String Script) := do
  match ← readFile path with
  | .error message => pure (.error message)
  | .ok source =>
    pure ((transform exportsName source).mapError fun error =>
      "Failed to transpile " ++ path ++ ": " ++ error.message)

/-- Rewrites files in order, up to the first that cannot be rewritten. -/
def transpileFiles (exportsName : String) :
    List String → Reading (Except String (List (String × Script)))
  | [] => pure (.ok [])
  | path :: rest => do
    match ← transpileFile exportsName path with
    | .error message => pure (.error message)
    | .ok script => pure ((← transpileFiles exportsName rest).map ((path, script) :: ·))

/-- Rewritten files as plain data: a single one by itself, several by their paths. -/
def scriptsToContent : List (String × Script) → Content
  | [(_, script)] => script.toContent
  | scripts => Content.ofFields (scripts.map fun entry => (entry.1, entry.2.toContent))

/-- Rewritten files for readers; several have headings. -/
def describeScripts : List (String × Script) → String
  | [(_, script)] => script.describe
  | scripts => String.join (scripts.map fun entry =>
      paint [.bold] ("// " ++ entry.1) ++ "\n" ++ entry.2.describe)

/-- Rewrites files and prints the result. -/
def transpile (exportsName : String) (paths : List String) (json : Bool) : Reading Report := do
  match ← transpileFiles exportsName paths with
  | .error message => pure (.failed message)
  | .ok scripts =>
    pure (.success (if json then (scriptsToContent scripts).pretty ++ "\n"
      else describeScripts scripts))

/-! ## All commands -/

/-- Traces a module. -/
def trace (config : ProgramConfig) (entry : String) (root : Option String) : Reading Report := do
  let transcript ← Trace.run config.loader (root.getD config.directory) entry
  let output := String.join (transcript.calls.map Trace.callLines)
  match transcript.outcome with
  | some (.ok content) => pure (.success (output ++ Trace.exportsLine content))
  | some (.error failure) => pure ⟨output, some (Trace.failureMessage failure.error)⟩
  | none => pure (.success output)

/-- Runs a command. -/
def Command.run (config : ProgramConfig) : Command → Reading Report
  | tokens file all => listTokens file all
  | transpile files json => CommandLine.transpile config.loader.exportsName files json
  | trace entry root => CommandLine.trace config entry root
  | console => pure (.success "")

/-- How a run of the program ends: without settings, or with a command's report under the
settings in force. -/
inductive Ending where
  | unconfigured (message : String)
  | ran (config : ProgramConfig) (report : Report)

/-- Runs the program. -/
def Arguments.run (arguments : Arguments) : Reading Ending := do
  match ← loadConfig arguments.config with
  | .error message => pure (.unconfigured message)
  | .ok config =>
    match arguments.command with
    | none => pure (.ran config (.success ""))
    | some command => pure (.ran config (← command.run config))

end ScriptLink.CommandLine
