import ScriptLink.ReservedWord
import ScriptLink.Terminal

/-!
# Coloured input

The line that is being typed is shown with a colour per kind of token. A command has a
colour of its own, and a line that is no sequence of tokens yet is shown as it is.
-/

namespace ScriptLink.Console

/-- The styles for the tokens of a kind. -/
def tokenStyles : TokenKind → List Style
  | .keyword => [.bold, .magenta]
  | .string | .template => [.green]
  | .number _ => [.yellow]
  | .regexp => [.red]
  | .operator => [.cyan]
  | .bracket => [.yellow]
  | .comment | .docComment => [.dimmed]
  | _ => []

/-- How a line is shown. -/
def highlight (line : String) : String :=
  if line.startsWith "." then paint [.magenta] line
  else
    match tokenize line with
    | .error _ => line
    | .ok stream =>
      String.join (stream.classify.tokens.toList.map fun token =>
        paint (tokenStyles token.kind) token.lexeme)

end ScriptLink.Console
