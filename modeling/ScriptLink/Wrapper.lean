import ScriptLink.Binding
import ScriptLink.Config
import ScriptLink.Content.Printer

/-!
# Wrapped modules

What a host runs for a script module: a header with the path, one line for each name that is
bound from a dependency, the rewritten body, and one assignment for each name that the module
exports by a declaration or a list. The assignments come last, so that the body has defined
what they read; a default export has been assigned in the body already.
-/

namespace ScriptLink

/-- A name bound from the exports of the module at `source`. -/
structure Link where
  name : String
  source : String
  /-- the member read, or none for the whole export object -/
  member : Option String
  deriving DecidableEq, Repr

/-- The link of one binding that is read from the module at `source`. -/
def Link.ofBinding (source : String) (binding : Binding) : Link :=
  ⟨binding.localName, source, binding.member⟩

/-- A script module ready to run. -/
structure Wrapper where
  path : String
  links : List Link
  body : String
  exports : List Export
  exportsName : String
  importsName : String
  deriving DecidableEq, Repr

namespace Link

/-- The line that binds the name. -/
def line (importsName : String) (link : Link) : String :=
  "var " ++ link.name ++ " = " ++ importsName ++ "[" ++ Content.quote link.source ++ "]" ++
    (link.member.map fun member => "[" ++ Content.quote member ++ "]").getD "" ++ ";\n"

end Link

/-- The line that assigns an exported name; nothing for the default export. -/
def Export.line (exportsName : String) (item : Export) : String :=
  match item.localName with
  | none => ""
  | some name => exportsName ++ "." ++ item.name ++ " = " ++ name ++ ";\n"

namespace Wrapper

/-- An empty module under the names of a configuration. -/
def empty (config : Config) (path : String) : Wrapper :=
  ⟨path, [], "", [], config.exportsName, config.importsName⟩

def exportNames (wrapper : Wrapper) : List String := wrapper.exports.map Export.name

def header (wrapper : Wrapper) : String := "/** @file " ++ wrapper.path ++ " */\n"

/-- The text that the host runs. -/
def render (wrapper : Wrapper) : String :=
  wrapper.header ++ String.join (wrapper.links.map (Link.line wrapper.importsName)) ++
    wrapper.body ++ "\n" ++ String.join (wrapper.exports.map (Export.line wrapper.exportsName))

end Wrapper

end ScriptLink
