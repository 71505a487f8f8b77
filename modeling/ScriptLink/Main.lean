import ScriptLink.CommandLine.Run
import ScriptLink.Console.Completeness
import ScriptLink.Console.Dialogue

/-!
# The program

The outermost layer: it carries out readings on the disk, prints what commands report, and
feeds the console from the standard input.
-/

namespace ScriptLink

/-- Reads a file from the disk. -/
def readFromDisk (path : String) : IO (Except FileError String) := do
  if let some error := FileError.ofPath? path then return .error error
  try
    return .ok (← IO.FS.readFile path)
  catch
    | .noFileOrDirectory .. => return .error .absent
    | .inappropriateType .. => return .error .isDirectory
    | .invalidArgument .. => return .error .nameTooLong
    | _ => return .error .notDirectory

/-- Carries out a computation on the disk. -/
def Reading.perform {α : Type} : Reading α → IO α
  | done value => pure value
  | read path next => do (next (← readFromDisk path)).perform

/-- Prints a message of failure. -/
def reportFailure (message : String) : IO Unit :=
  IO.eprintln (paint [.bold, .red] "Error" ++ ": " ++ message)

/-- One line of the input without its line break; none at the end of the input. -/
def readLine (input : IO.FS.Stream) : IO (Option String) := do
  let line ← input.getLine
  if line.isEmpty then return none
  let text := line.toList
  return some (String.ofList (if text.getLast? == some '\n' then text.dropLast else text))

/-- Reads lines until they make a complete input; none at the end of the input. -/
partial def readInput (input : IO.FS.Stream) (before : String) : IO (Option String) := do
  match ← readLine input with
  | none => return none
  | some line =>
    let text := before ++ line
    if Console.isComplete text then return some text
    readInput input (text ++ "\n")

/-- Answers the input, entry by entry. -/
partial def converse (exportsName : String) (input output : IO.FS.Stream) : IO Unit := do
  output.putStr Console.prompt
  output.flush
  let answer ← match ← readInput input "" with
    | some line => (Console.enter exportsName line).perform
    | none => pure Console.endOfInput
  output.putStr answer.output
  output.flush
  IO.eprint answer.errors
  if !answer.final then converse exportsName input output

/-- Runs the console. -/
def runConsole (config : ProgramConfig) : IO Unit := do
  let output ← IO.getStdout
  output.putStr Console.banner
  converse config.loader.exportsName (← IO.getStdin) output

/-- Runs the program under arguments that could be read; the answer is the exit code. -/
def runArguments (arguments : CommandLine.Arguments) : IO UInt32 := do
  match ← arguments.run.perform with
  | .unconfigured message =>
    reportFailure message
    return 1
  | .ran config report =>
    IO.print report.output
    match arguments.command, report.failure with
    | _, some message =>
      reportFailure message
      return 1
    | none, none | some .console, none =>
      runConsole config
      return 0
    | _, none => return 0

/-- What is shown for a command line that asks for it or is refused, with the exit code. -/
def explain : CommandLine.UsageError → IO UInt32
  | .displayVersion => do
    IO.println (Console.programName ++ " " ++ Console.versionNumber)
    return 0
  | .displayHelp => do
    IO.println ("Usage: " ++ Console.programName ++
      " [-v] [-c FILE] [tokens FILE | transpile FILE... | trace ENTRY | repl]")
    return 0
  | error => do
    IO.eprintln ("error: " ++ error.name)
    return 2

end ScriptLink

def main (words : List String) : IO UInt32 :=
  match ScriptLink.CommandLine.Arguments.ofWords words with
  | .error error => ScriptLink.explain error
  | .ok arguments => ScriptLink.runArguments arguments
