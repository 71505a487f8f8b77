import ScriptLink.SourceError

/-!
# Why a module cannot be loaded

Four causes are the loader's own; the last one is whatever the host reports, in its own
words.
-/

namespace ScriptLink

/-- Why a module cannot be loaded. The path is the resolved one. -/
inductive LoadError where
  /-- no loader is registered for the suffix -/
  | unknownSuffix (path : String)
  /-- the export slot was written twice -/
  | duplicateExport (path : String)
  /-- the script is refused -/
  | transpile (path : String) (source : SourceError)
  /-- the default export cannot carry a template -/
  | invalidComponent (path : String)
  | host (message : String)
  deriving DecidableEq, Repr

def LoadError.message : LoadError → String
  | unknownSuffix path =>
    "Error importing '" ++ path ++ "': no loader is registered for its suffix"
  | duplicateExport path => "Error importing '" ++ path ++ "': the module exported more than once"
  | transpile path source => "Error transpiling '" ++ path ++ "': " ++ source.message
  | invalidComponent path =>
    "Error importing '" ++ path ++ "': the component's default export is not an object"
  | host message => message

end ScriptLink
