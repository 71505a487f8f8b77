import ScriptLink.Markup.Tag

/-!
# Dependency markers

Besides its import statements, a module may name further dependencies with marker tags:
`<amd-dependency path="./util.js" name="util" />`. A script writes them behind three slashes,
in the letters given here; markup writes them as elements, in any case. A marker with a name
binds the whole export object.
-/

namespace ScriptLink

/-- A dependency declared outside of import statements. -/
structure Marker where
  /-- the path as written -/
  path : String
  /-- the name bound to the dependency's export object -/
  name : Option String
  deriving DecidableEq, Repr

namespace Marker

open Markup

/-- The characters of a name in a marker. -/
def isNameChar (c : Char) : Bool := Unicode.isWord c || c == '$'

/-- The marker tag, its words compared after `fold`. -/
def tag? (fold : Char → Char) : Pattern Marker := fun text => do
  let text ← word? fold "<amd-dependency".toList text
  let (path, text) ← attribute? fold "path" (fun c => !isQuote c) text
  let named : Option (Marker × List Char) := do
    let (name, text) ← attribute? fold "name" isNameChar text
    let rest ← tagEnd? text
    some (⟨String.ofList path, some (String.ofList name)⟩, rest)
  match named with
  | some found => some found
  | none => (tagEnd? text).map fun rest => (⟨String.ofList path, none⟩, rest)

/-- Three slashes, white space, and a marker tag. -/
def comment? : Pattern Marker := fun text => do
  let text ← word? id "///".toList text
  tag? id (blanks text)

/-- The markers of a script, in order. -/
def ofScript (source : String) : List Marker :=
  (occurrences comment? source.toList).map (·.value)

/-- The markers of a markup text, in order. -/
def ofMarkup (markup : String) : List Marker :=
  (occurrences (tag? foldCase) markup.toList).map (·.value)

end Marker

end ScriptLink
