import ScriptLink.ReservedWord
import ScriptLink.Statement

/-!
# Rewriting a script for a host without modules

One pass over the keywords of a classified stream, from the first to the last:

* `let` and `const` become `var`, since the body of a module runs in one function;
* an import statement is removed and its bindings are recorded under its path;
* a specifier list of exports is removed and recorded;
* an exported declaration stays, without its keyword and with a mark behind the declared
  name;
* the default export becomes an assignment to the default member of the export object.

The pass replaces what tokens write and never what they are, so every decision is taken on
the script as it was. A removed statement is passed over; of the other statements only the
keyword is done, and the pass goes on inside them.
-/

namespace ScriptLink

/-- The state of the pass: the stream with its replacements so far, what has been recorded,
and the index from which on tokens are looked at again. -/
structure Rewriting where
  stream : TokenStream
  imports : ImportMap
  exports : List Export
  resume : Nat
  deriving DecidableEq, Repr

namespace TokenStream

/-- Lets the tokens from `first` through `last` write nothing, trivia included. -/
def erase (stream : TokenStream) (first last : Nat) : TokenStream :=
  (List.range' first (last + 1 - first)).foldl (fun stream id => stream.replace id "") stream

end TokenStream

namespace Rewriting

/-- The mark behind a declared name that is exported. -/
def exportedMark : String := "/* exported */"

/-- Records an import statement that begins at the token `id` and removes it. -/
def removeImport (state : Rewriting) (id : Nat) (statement : ImportStatement) : Rewriting :=
  { state with
    stream := state.stream.erase id statement.last
    imports := state.imports.add statement.path statement.bindings
    resume := statement.last + 1 }

/-- Records an export statement that begins at the token `id` and rewrites it. -/
def applyExport (exportsName : String) (state : Rewriting) (id : Nat) :
    ExportStatement → Rewriting
  | .default keyword target =>
    let assignment := exportsName ++ "." ++ defaultName ++ " = " ++ target.text
    { state with
      stream := ((state.stream.replace id "").replace keyword "").replace target.id assignment
      exports := state.exports ++ [.default] }
  | .clause specifiers last =>
    { state with
      stream := state.stream.erase id last
      exports := state.exports ++
        specifiers.map fun specifier => .named specifier.name specifier.newName
      resume := last + 1 }
  | .declaration name =>
    { state with
      stream := (state.stream.replace id "").replace name.id (name.text ++ " " ++ exportedMark)
      exports := state.exports ++ [.named name.text none] }

/-- Rewrites the statement that begins at the keyword `id`, if it is one of those above. -/
def visitKeyword (exportsName : String) (state : Rewriting) (id : Nat) :
    Except Malformed Rewriting :=
  let text := state.stream.lexeme id
  if text = "let" ∨ text = "const" then .ok { state with stream := state.stream.replace id "var" }
  else if text = "export" then
    (exportStatement (state.stream.offset id) (state.stream.itemsAfter id)).map
      (applyExport exportsName state id)
  else if text = "import" then
    (importStatement (state.stream.offset id) (state.stream.itemsAfter id)).map fun
      | none => state
      | some statement => state.removeImport id statement
  else .ok state

/-- Looks at one token, unless it belongs to a removed statement. -/
def visit (exportsName : String) (state : Rewriting) (id : Nat) : Except Malformed Rewriting :=
  if id < state.resume then .ok state
  else if state.stream.kind? id = some .keyword then visitKeyword exportsName state id
  else .ok state

end Rewriting

namespace TokenStream

/-- The state after the pass over a classified stream. -/
def rewrite (stream : TokenStream) (exportsName : String) : Except Malformed Rewriting :=
  (List.range stream.size).foldlM (Rewriting.visit exportsName) ⟨stream, [], [], 0⟩

end TokenStream

/-- A rewritten script: its text, the modules it needs, and the names it offers. -/
structure Script where
  text : String
  imports : ImportMap
  exports : List Export
  deriving DecidableEq, Repr

/-- The names a script offers, in the order of its export statements. -/
def Script.exportNames (script : Script) : List String := script.exports.map Export.name

/-- The name of the export object unless a configuration gives another. -/
def defaultExportsName : String := "exports"

/-- Takes a script apart, classifies its words and rewrites it. -/
def transform (exportsName : String) (source : String) : Except SourceError Script :=
  match tokenize source with
  | .error error => .error (.unterminated error)
  | .ok stream =>
    match stream.classify.rewrite exportsName with
    | .error error => .error (.malformed error)
    | .ok state => .ok ⟨state.stream.render, state.imports, state.exports⟩

end ScriptLink
