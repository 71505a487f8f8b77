import ScriptLink.Content
import ScriptLink.Rewrite

/-!
# Rewritten scripts as plain data

An export or binding is an object with one field, which says what kind it is; the default
export, which has nothing to tell, is a text.
-/

namespace ScriptLink

/-- An alias as plain data. -/
def Content.ofNewName (name : Option String) : Content := (name.map Content.text).getD .null

def Binding.toContent : Binding → Content
  | default name => Content.ofFields [("Default", .text name)]
  | named imported newName =>
    Content.ofFields [("Named", .list [.text imported, Content.ofNewName newName])]
  | whole name => Content.ofFields [("Namespace", .text name)]

def Export.toContent : Export → Content
  | default => .text "Default"
  | named name newName =>
    Content.ofFields [("Named", .list [.text name, Content.ofNewName newName])]

/-- The imports as an object with a field per path. -/
def ImportMap.toContent (map : ImportMap) : Content :=
  Content.ofFields (map.map fun entry => (entry.1, .list (entry.2.map Binding.toContent)))

def Script.toContent (script : Script) : Content :=
  Content.ofFields
    [("script", .text script.text), ("imports", script.imports.toContent),
      ("exports", .list (script.exports.map Export.toContent))]

end ScriptLink
