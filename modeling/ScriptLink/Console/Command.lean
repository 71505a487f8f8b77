import ScriptLink.Unicode.Blank

/-!
# Commands of the console

A line that begins with a dot names a command, in full or by a short form, in any case. What
follows the first blank behind the name is its argument.
-/

namespace ScriptLink.Console

/-- What can be asked of the console. -/
inductive Command where
  | help
  | exit
  | clear
  | version
  | load
  | tokens
  deriving DecidableEq, Repr

namespace Command

/-- The lower-case form of a character, as far as a name can tell: the letters of ASCII, and
the one sign beyond them whose lower-case form is such a letter. -/
def lower (c : Char) : Char := if c = '\u212a' then 'k' else c.toLower

/-- The command with the given name in lower case. -/
def ofName? (name : String) : Option Command :=
  if name ∈ ["help", "h", "?"] then some help
  else if name ∈ ["exit", "quit", "q"] then some exit
  else if name ∈ ["clear", "cls"] then some clear
  else if name ∈ ["version", "v"] then some version
  else if name ∈ ["load", "l"] then some load
  else if name ∈ ["tokens", "t"] then some tokens
  else none

/-- The command that a line names, with its argument unless that is blank. -/
def parse? (line : String) : Option (Command × Option String) :=
  match Unicode.trimBlanks line.toList with
  | '.' :: text =>
    let name := text.takeWhile (!Unicode.isBlank ·)
    let argument := Unicode.trimBlanks (text.drop (name.length + 1))
    (ofName? (String.ofList (name.map lower))).map fun command =>
      (command, if argument = [] then none else some (String.ofList argument))
  | _ => none

/-- How each command is used, and what it does. -/
def usages : List (String × String) :=
  [(".help", "Show this help message"), (".exit", "Exit the REPL"), (".clear", "Clear the screen"),
    (".version", "Show version information"), (".load <file>", "Rewrite a script file"),
    (".tokens <code>", "Show the classified tokens of a snippet")]

end Command

end ScriptLink.Console
