import ScriptLink.Content
import ScriptLink.Path

/-!
# Loaders

The suffix of a specifier picks the loader of a module. Scripts, style sheets and components
are built in; others can be registered for suffixes that are free, and the first registration
counts.
-/

namespace ScriptLink

/-- How a registered loader can be told to fail. -/
inductive CustomFailure where
  | invalidComponent
  | host (message : String)
  deriving DecidableEq, Repr

/-- A registered loader: after its call to the host it may write the module's slot itself,
then answer with another module, fail, or answer a value, whichever comes first. -/
structure CustomLoader where
  slotValue : Option Content
  target : Option String
  failure : Option CustomFailure
  value : Content
  deriving Repr

/-- The way modules of a suffix are loaded. -/
inductive Loader where
  | script
  | stylesheet
  | component
  /-- the content is the path as a text -/
  | echo
  | custom (loader : CustomLoader)
  deriving Repr

/-- The registered loaders by suffix. -/
abbrev Loaders := List (String × Loader)

namespace Loaders

def builtIn : Loaders := [("js", .script), ("css", .stylesheet), ("html", .component)]

/-- The loader for a specifier, picked by its suffix as written. -/
def find? (loaders : Loaders) (specifier : String) : Option Loader :=
  loaders.lookup (Path.suffix specifier)

/-- Registers a loader; none if the suffix is taken. -/
def register? (loaders : Loaders) (suffix : String) (loader : Loader) : Option Loaders :=
  if (loaders.lookup suffix).isSome then none else some (loaders ++ [(suffix, loader)])

end Loaders

end ScriptLink
