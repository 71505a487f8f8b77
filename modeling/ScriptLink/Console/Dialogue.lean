import ScriptLink.Console.Command
import ScriptLink.FileTree
import ScriptLink.Listing

/-!
# The dialogue

The console prints a banner and then answers what is entered: commands, and scripts, which
are rewritten and listed. Each answer says what goes to the output and what to the error
output, and whether the dialogue is over.
-/

namespace ScriptLink.Console

/-- What is printed for one entry. -/
structure Answer where
  output : String
  errors : String
  /-- no more entries are taken -/
  final : Bool
  deriving DecidableEq, Repr

namespace Answer

/-- An answer on the output, after which the dialogue goes on. -/
def say (output : String) : Answer := ⟨output, "", false⟩

/-- An answer on the error output, after which the dialogue goes on. -/
def complain (errors : String) : Answer := ⟨"", errors, false⟩

/-- The last answer; a blank line ends the output. -/
def close (output : String) : Answer := ⟨output ++ "\n", "", true⟩

end Answer

/-- The name of the program, as it is shown. -/
def programName : String := "amef"

def versionNumber : String := "0.1.0"

def prompt : String := paint [.bold, .brightGreen] (programName ++ ">") ++ " "

/-- What is printed before the first prompt. -/
def banner : String :=
  "\n  " ++ paint [.bold, .brightCyan] programName ++ " " ++ paint [.dimmed] "v" ++ " " ++
    paint [.brightYellow] versionNumber ++ "\n  " ++
    paint [.dimmed] "Rewrites import/export scripts as you type" ++ "\n\n  " ++
    paint [.dimmed] "Type" ++ " " ++ paint [.cyan] ".help" ++ " " ++
    paint [.dimmed] "for available commands" ++ "\n\n"

/-- A line of the help: what to enter in a column of its own, and what that does. -/
def helpLine (style : Style) (entry : String × String) : String :=
  "  " ++ paint [style] (padRight 16 entry.1) ++ " " ++ paint [.dimmed] entry.2 ++ "\n"

def shortcuts : List (String × String) :=
  [("Ctrl+C", "Cancel current input"), ("Ctrl+D", "Exit REPL"), ("Tab", "Autocomplete")]

def helpText : String :=
  "\n" ++ paint [.bold, .white] "REPL Commands:" ++ "\n\n" ++
    String.join (Command.usages.map (helpLine .cyan)) ++ "\n" ++
    paint [.bold, .white] "Keyboard Shortcuts:" ++ "\n\n" ++
    String.join (shortcuts.map (helpLine .yellow)) ++ "\n"

/-- A message of failure; what stands before its first colon is set off. -/
def errorLine (message : String) : String :=
  let kind := message.toList.takeWhile (· != ':')
  let rest := message.toList.drop kind.length
  (if rest = [] then paint [.red] message
    else paint [.bold, .red] (String.ofList kind) ++ String.ofList rest) ++ "\n"

/-- The complaint about a command without an argument. -/
def missingArgument (command needed : String) : Answer :=
  .complain (paint [.bold, .red] "Error" ++ ": " ++ paint [.cyan] command ++ " " ++
    paint [.dimmed] needed ++ "\n")

/-- Rewrites a script and lists the result. -/
def rewrite (exportsName source : String) : Answer :=
  match transform exportsName source with
  | .ok script => .say script.describe
  | .error error => .complain (errorLine error.message)

/-- Lists the tokens of a snippet. -/
def listTokens (source : String) : Answer :=
  match tokenLines false source with
  | .ok lines => .say (String.join (lines.map fun line => paint [.dimmed] line ++ "\n"))
  | .error error => .complain (errorLine error.message)

/-- Rewrites the script in a file. -/
def loadFile (exportsName path : String) : Reading Answer := do
  match ← Reading.file path with
  | .ok source => pure (rewrite exportsName source)
  | .error error =>
    pure (.complain (errorLine ("Failed to read " ++ path ++ ": " ++ error.message)))

/-- Carries out a command. -/
def execute (exportsName : String) : Command → Option String → Reading Answer
  | .help, _ => pure (.say helpText)
  | .exit, _ => pure (.close "")
  | .clear, _ => pure (.say "\x1b[2J\x1b[H")
  | .version, _ => pure (.say
      (paint [.bold, .brightCyan] programName ++ ": " ++ paint [.yellow] versionNumber ++ "\n"))
  | .load, some path => loadFile exportsName path
  | .load, none => pure (missingArgument ".load" "requires a file path")
  | .tokens, some source => pure (listTokens source)
  | .tokens, none => pure (missingArgument ".tokens" "requires a snippet")

/-- Answers a line. A blank one gets no answer, and one that names no command is a script. -/
def enter (exportsName line : String) : Reading Answer :=
  if line.toList.all Unicode.isBlank then pure (.say "")
  else
    match Command.parse? line with
    | some (command, argument) => execute exportsName command argument
    | none => pure (rewrite exportsName line)

/-- Answers an input that was called off. -/
def interrupt : Answer := .say (paint [.dimmed] "^C" ++ "\n")

/-- Answers the end of the input. -/
def endOfInput : Answer := .close (paint [.dimmed] "^D" ++ "\n")

end ScriptLink.Console
