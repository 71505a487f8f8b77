/-!
# Quoted strings

A string ends at the next occurrence of the character it began with. A backslash takes the
character after it along, a line break too; a line break of its own ends the search.
-/

namespace ScriptLink.Quoted

/-- What stands before the closing quote; none if the quote is missing. -/
def body? (quote : Char) : List Char → Option (List Char)
  | [] => none
  | '\\' :: [] => none
  | '\\' :: c :: rest => (body? quote rest).map ('\\' :: c :: ·)
  | c :: rest =>
    if c == '\n' || c == '\r' then none
    else if c == quote then some []
    else (body? quote rest).map (c :: ·)

/-- The opening quote and the body of the string at the start of `s`, whatever character the
quote is. The closing quote follows. -/
def open? : List Char → Option (List Char)
  | [] => none
  | quote :: rest => (body? quote rest).map (quote :: ·)

end ScriptLink.Quoted
