import ScriptLink.Rewrite
import ScriptLink.Terminal
import ScriptLink.Text.Escaped

/-!
# Listings for readers

Two forms in which a person gets to see a script: one line per classified token, and the
rewritten text with its imports and exports below it.
-/

namespace ScriptLink

/-- The line of a token: where it begins, its kind, and its text in quotes. -/
def Token.listing (token : Token) : String :=
  padLeft 6 (toString token.span.start) ++ "  " ++ padRight 16 token.kind.name ++ " " ++
    Escaped.quote token.lexeme

/-- A line per classified token of a script; white space is left out unless `all` holds. -/
def tokenLines (all : Bool) (source : String) : Except SourceError (List String) :=
  match tokenize source with
  | .error error => .error (.unterminated error)
  | .ok stream =>
    let shown := stream.classify.tokens.toList.filter fun token =>
      all || token.kind != .whitespace
    .ok (shown.map Token.listing)

namespace Script

/-- The line of an imported module: the names bound from it. -/
def importLine (entry : String × List Binding) : String :=
  "//   " ++ entry.1 ++ ": [" ++ ", ".intercalate (entry.2.map Binding.localName) ++ "]\n"

/-- The line of an exported name. -/
def exportLine (name : String) : String := "//   " ++ name ++ "\n"

/-- The text, which ends its last line, then the imports, then the exports. -/
def describe (script : Script) : String :=
  script.text ++ (if script.text.endsWith "\n" then "" else "\n") ++
    "\n// imports\n" ++ String.join (script.imports.map importLine) ++
    "// exports\n" ++ String.join (script.exportNames.map exportLine)

end Script

end ScriptLink
