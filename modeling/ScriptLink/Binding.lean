/-!
# Imported and exported names

What an import statement binds, what an export statement offers, and the map from module
paths to bindings that a script's import statements fill.
-/

namespace ScriptLink

/-- One name that an import statement brings into the script. -/
inductive Binding where
  /-- the default export under the given local name -/
  | default (name : String)
  /-- one export, under its own name or an alias -/
  | named (imported : String) (newName : Option String)
  /-- the whole export object under the given local name -/
  | whole (name : String)
  deriving DecidableEq, Repr

/-- The name that the binding introduces. -/
def Binding.localName : Binding → String
  | default name => name
  | named imported newName => newName.getD imported
  | whole name => name

/-- The name of the default export. -/
def defaultName : String := "default"

/-- The member of the export object that the binding reads; none for the whole object. -/
def Binding.member : Binding → Option String
  | default _ => some defaultName
  | named imported _ => some imported
  | whole _ => none

/-- One name that a script offers. -/
inductive Export where
  | default
  /-- a local name, offered as it is or under an alias -/
  | named (name : String) (newName : Option String)
  deriving DecidableEq, Repr

/-- The name under which the value is offered. -/
def Export.name : Export → String
  | default => defaultName
  | named name newName => newName.getD name

/-- The local name whose value is offered, if the export has one. -/
def Export.localName : Export → Option String
  | default => none
  | named name _ => some name

/-- Module paths as written, in the order in which they were first seen, with the bindings
read from each. -/
abbrev ImportMap := List (String × List Binding)

namespace ImportMap

/-- Adds bindings behind those that the path already has. -/
def add (path : String) (bindings : List Binding) : ImportMap → ImportMap
  | [] => [(path, bindings)]
  | (known, before) :: rest =>
    if known = path then (known, before ++ bindings) :: rest
    else (known, before) :: add path bindings rest

/-- Adds the entries of another map, in order. -/
def addAll (map other : ImportMap) : ImportMap :=
  other.foldl (fun map entry => map.add entry.1 entry.2) map

/-- The paths, in order. -/
def paths (map : ImportMap) : List String := map.map Prod.fst

end ImportMap

end ScriptLink
