import ScriptLink.CommandLine.Settings.Value
import ScriptLink.Config
import ScriptLink.FileTree

/-!
# Settings files

A settings file has a setting per line, a name and a text or integer with an equals sign
between them, and the names of tables in brackets, to which the settings below them belong.
A number sign begins a comment. Every name stands once in its table, and every table once in
the file. The file can begin with a byte order mark, which means nothing.
-/

namespace ScriptLink.CommandLine

/-- The settings read so far, in the order of the file, and the table that the next ones
belong to. -/
structure Settings where
  fields : Fields
  table : Option String

namespace Settings

def isSpace (c : Char) : Bool := c == ' ' || c == '\t'

def isNameChar (c : Char) : Bool := c.isAlphanum || c == '_' || c == '-'

/-- Whether nothing but a comment is left of a line. -/
def isEndOfLine (text : List Char) : Bool :=
  match text.dropWhile isSpace with
  | [] => true
  | '#' :: comment => comment.all isTextChar
  | _ => false

/-- The name at the beginning of a text, and what follows it. -/
def name? (text : List Char) : Option (String × List Char) :=
  let name := text.takeWhile isNameChar
  if name = [] then none
  else some (String.ofList name, (text.drop name.length).dropWhile isSpace)

/-- Adds a field behind the others, unless there is one of its name. -/
def addField (fields : Fields) (name : String) (value : Content) : Option Fields :=
  if (Fields.get? name fields).isSome then none else some (fields ++ [(name, value)])

/-- Adds a setting to the current table. -/
def add? (settings : Settings) (name : String) (value : Content) : Option Settings :=
  match settings.table with
  | none =>
    (addField settings.fields name value).map fun fields => { settings with fields := fields }
  | some table =>
    match Fields.get? table settings.fields with
    | some (.object fields) =>
      (addField fields name value).map fun fields =>
        { settings with
          fields := settings.fields.map fun field =>
            if field.1 = table then (table, .object fields) else field }
    | _ => none

/-- Begins a table. -/
def begin? (settings : Settings) (name : String) : Option Settings :=
  (addField settings.fields name Content.emptyObject).map fun fields => ⟨fields, some name⟩

/-- Reads a line. -/
def line? (settings : Settings) (line : List Char) : Option Settings := do
  if isEndOfLine line then return settings
  match line.dropWhile isSpace with
  | '[' :: rest =>
    match ← name? (rest.dropWhile isSpace) with
    | (name, ']' :: after) => if isEndOfLine after then settings.begin? name else none
    | _ => none
  | text =>
    match ← name? text with
    | (name, '=' :: rest) =>
      let (value, after) ← value? (rest.dropWhile isSpace)
      if isEndOfLine after then settings.add? name value else none
    | _ => none

/-- The lines of a text; a line break can be preceded by a carriage return. -/
def lines (text : String) : List (List Char) :=
  ((text.splitOn "\r\n").flatMap (·.splitOn "\n")).map String.toList

/-- The text without the byte order mark at its beginning. -/
def withoutMark (text : String) : String :=
  match text.toList with
  | '\ufeff' :: rest => String.ofList rest
  | _ => text

/-- The settings in a text; none if it does not follow the rules above. -/
def read? (text : String) : Option Content :=
  ((lines (withoutMark text)).foldlM line? ⟨[], none⟩).map fun settings =>
    Content.ofFields settings.fields

end Settings

/-! ## Finding the settings -/

/-- The settings file that is used if it exists. -/
def usualSettings : String := "amef.toml"

/-- The settings in a text. -/
def configOfText? (text : String) : Option ProgramConfig :=
  (Settings.read? text).bind fun content => (ProgramConfig.ofContent content).toOption

/-- The settings in a file that could or could not be read, or the message that there are
none. -/
def configOfFile (path : String) : Except FileError String → Except String ProgramConfig
  | .error _ => .error ("Failed to read config " ++ path)
  | .ok text =>
    match configOfText? text with
    | some config => .ok config
    | none => .error ("Failed to parse config " ++ path)

/-- The settings in the file that is named, or else in the usual one if it exists. -/
def loadConfig (explicit : Option String) : Reading (Except String ProgramConfig) := do
  match explicit with
  | some path => pure (configOfFile path (← Reading.file path))
  | none =>
    match ← Reading.file usualSettings with
    | .error .absent => pure (.ok ProgramConfig.default)
    | found => pure (configOfFile usualSettings found)

end ScriptLink.CommandLine
