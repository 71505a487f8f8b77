import ScriptLink.Content
import ScriptLink.Rewrite
import ScriptLink.Text.Escaped

/-!
# Settings

The settings of a loader are the names of the two tables that a module's body sees and the
module that top-level imports are resolved against. They are read from plain data: an object
with some of the fields, or a list of the values in order. Unknown fields are passed over,
missing ones keep their defaults, and the first value of a wrong kind is reported; fields are
looked at in the order of their names.
-/

namespace ScriptLink

/-- The settings of a loader. -/
structure Config where
  /-- the name of the export object inside a module -/
  exportsName : String
  /-- the name of the table a module reads its dependencies from -/
  importsName : String
  /-- the module that top-level imports are relative to -/
  defaultReferrer : String
  deriving DecidableEq, Repr

/-- The settings of the whole program: where modules are kept, and the loader's settings. -/
structure ProgramConfig where
  root : Option String
  loader : Config
  deriving DecidableEq, Repr

/-- What a setting was expected to be. -/
inductive Expected where
  | string
  | path
  | loaderConfig
  | programConfig
  deriving DecidableEq, Repr

def Expected.description : Expected → String
  | string => "a string"
  | path => "path string"
  | loaderConfig => "struct LoaderConfig"
  | programConfig => "struct Config"

/-- Why settings are refused. -/
inductive ConfigError where
  | wrongKind (found : Content) (expected : Expected)
  /-- a list of values that is too long, with its length -/
  | tooLong (length : Nat)

namespace ConfigError

/-- How a message names a value. -/
def describe : Content → String
  | .null => "null"
  | .bool value => if value then "boolean `true`" else "boolean `false`"
  | .int value => "integer `" ++ toString value ++ "`"
  | .text value => "string " ++ Escaped.quote value
  | .list _ => "sequence"
  | .object _ => "map"

def message : ConfigError → String
  | wrongKind found expected =>
    "invalid type: " ++ describe found ++ ", expected " ++ expected.description
  | tooLong length =>
    "invalid length " ++ toString length ++ ", expected fewer elements in array"

end ConfigError

namespace Config

def default : Config := ⟨defaultExportsName, "__imports__", "."⟩

/-- A setting that has to be a text. -/
def readText : Content → Except ConfigError String
  | .text value => .ok value
  | other => .error (.wrongKind other .string)

/-- Takes over one field of an object. -/
def readField (config : Config) (field : String × Content) : Except ConfigError Config :=
  if field.1 = "exports_ident" then
    (readText field.2).map fun value => { config with exportsName := value }
  else if field.1 = "imports_ident" then
    (readText field.2).map fun value => { config with importsName := value }
  else if field.1 = "default_referrer" then
    (readText field.2).map fun value => { config with defaultReferrer := value }
  else .ok config

/-- The names of the fields, in the order in which a list gives their values. -/
def fieldOrder : List String := ["exports_ident", "imports_ident", "default_referrer"]

/-- Reads the settings of a loader. -/
def ofContent : Content → Except ConfigError Config
  | .object fields => fields.foldlM readField default
  | .list items => do
    let config ← (fieldOrder.zip items).foldlM readField default
    if items.length ≤ fieldOrder.length then pure config else throw (.tooLong items.length)
  | other => .error (.wrongKind other .loaderConfig)

/-- The settings as plain data. -/
def toContent (config : Config) : Content :=
  Content.ofFields
    [("exports_ident", .text config.exportsName), ("imports_ident", .text config.importsName),
      ("default_referrer", .text config.defaultReferrer)]

end Config

namespace ProgramConfig

def default : ProgramConfig := ⟨none, Config.default⟩

/-- The place of the modules, which may be left open. -/
def readRoot : Content → Except ConfigError (Option String)
  | .null => .ok none
  | .text value => .ok (some value)
  | other => .error (.wrongKind other .path)

/-- Takes over one field of an object. -/
def readField (config : ProgramConfig) (field : String × Content) :
    Except ConfigError ProgramConfig :=
  if field.1 = "root" then (readRoot field.2).map fun value => { config with root := value }
  else if field.1 = "loader" then
    (Config.ofContent field.2).map fun value => { config with loader := value }
  else .ok config

/-- The names of the fields, in the order in which a list gives their values. -/
def fieldOrder : List String := ["root", "loader"]

/-- Reads the settings of the program. -/
def ofContent : Content → Except ConfigError ProgramConfig
  | .object fields => fields.foldlM readField default
  | .list items => do
    let config ← (fieldOrder.zip items).foldlM readField default
    if items.length ≤ fieldOrder.length then pure config else throw (.tooLong items.length)
  | other => .error (.wrongKind other .programConfig)

/-- The directory of the modules; the working directory unless one is set. -/
def directory (config : ProgramConfig) : String := config.root.getD "."

/-- The settings as plain data. -/
def toContent (config : ProgramConfig) : Content :=
  Content.ofFields
    [("root", (config.root.map Content.text).getD .null), ("loader", config.loader.toContent)]

end ProgramConfig

end ScriptLink
