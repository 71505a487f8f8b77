import ScriptLink.Binding
import ScriptLink.Content
import ScriptLink.Marker

/-!
# Components

A component is a module written in markup. It bundles a script, a template, styles and
dependency markers; each kind is searched for in the whole text by itself. The template is
the inner text of the first template element, and templates may be nested in it: the tags
are counted, and a closing tag that has nothing to close is passed over.
-/

namespace ScriptLink

/-- The parts of a markup module. -/
structure Component where
  /-- the text of the first script element, empty if there is none -/
  script : String
  /-- the inner text of the first template element -/
  template : Option String
  /-- the text of each style element, in order -/
  styles : List String
  markers : List Marker
  deriving DecidableEq, Repr

namespace Component

open Markup

/-- Where the inner text of the first template begins and ends, if it ends: `depth` templates
are open, and the outermost began at `start`. -/
def templateSpan? (depth start : Nat) : List (Occurrence Bool) → Option (Nat × Nat)
  | [] => none
  | tag :: rest =>
    if tag.value then
      if depth = 1 then some (start, tag.start) else templateSpan? (depth - 1) start rest
    else if depth = 0 then templateSpan? 1 tag.stop rest
    else templateSpan? (depth + 1) start rest

/-- The inner text of the first template element. -/
def firstTemplate? (markup : List Char) : Option (List Char) :=
  (templateSpan? 0 0 (occurrences (Markup.tag? "template") markup)).map fun (start, stop) =>
    (markup.drop start).take (stop - start)

/-- Takes a markup text apart. -/
def ofMarkup (markup : String) : Component :=
  let texts (name : String) : List String :=
    (occurrences (element? name) markup.toList).map fun found => String.ofList found.value
  { script := (texts "script").headD ""
    template := (firstTemplate? markup.toList).map String.ofList
    styles := texts "style"
    markers := Marker.ofMarkup markup }

/-- The name under which a component's default export carries its template. -/
def templateName : String := "template"

/-- Puts the template on the default export, an object that is made if it is missing or null;
none if the exports or the default export are no objects. -/
def attach? (template : String) : Content → Option Content
  | .object fields =>
    match (Fields.get? defaultName fields).getD .null with
    | .null =>
      some (.object (Fields.insert defaultName (.object [(templateName, .text template)]) fields))
    | .object inner =>
      some (.object (Fields.insert defaultName
        (.object (Fields.insert templateName (.text template) inner)) fields))
    | _ => none
  | _ => none

end Component

end ScriptLink
