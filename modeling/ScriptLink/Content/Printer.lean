import ScriptLink.Content

/-!
# Content as text

`Content.compact` writes a value on one line, `Content.pretty` with a line per item and two
blanks per level; empty lists and objects stay on one line. Texts are put in double quotes by
`Content.quote`, which escapes the quote, the backslash and the controls below the space and
nothing else.
-/

namespace ScriptLink.Content

/-- The digit with the given value. -/
def hexDigit (value : Nat) : Char := (Nat.toDigits 16 value).headD '0'

/-- A character inside quotes. -/
def quoteChar (c : Char) : List Char :=
  if c = '\x22' then ['\\', '\x22']
  else if c = '\\' then ['\\', '\\']
  else if c = '\x08' then ['\\', 'b']
  else if c = '\x0c' then ['\\', 'f']
  else if c = '\n' then ['\\', 'n']
  else if c = '\r' then ['\\', 'r']
  else if c = '\t' then ['\\', 't']
  else if c.toNat < 0x20 then
    ['\\', 'u', '0', '0', hexDigit (c.toNat / 16), hexDigit (c.toNat % 16)]
  else [c]

/-- A text between quotes. -/
def quote (text : String) : String :=
  String.ofList ('\x22' :: (text.toList.flatMap quoteChar ++ ['\x22']))

mutual

/-- The value on one line. -/
def compact : Content → String
  | .null => "null"
  | .bool value => if value then "true" else "false"
  | .int value => toString value
  | .text value => quote value
  | .list items => "[" ++ compactItems items ++ "]"
  | .object fields => "\x7b" ++ compactFields fields ++ "\x7d"

def compactItems : List Content → String
  | [] => ""
  | [item] => compact item
  | item :: rest => compact item ++ "," ++ compactItems rest

def compactFields : List (String × Content) → String
  | [] => ""
  | [(name, value)] => quote name ++ ":" ++ compact value
  | (name, value) :: rest => quote name ++ ":" ++ compact value ++ "," ++ compactFields rest

end

/-- A line break and the blanks of a level. -/
def lineAt (level : Nat) : String := "\n" ++ String.ofList (List.replicate (2 * level) ' ')

mutual

/-- The value with a line per item, where its own line is at the given level. -/
def prettyAt (level : Nat) : Content → String
  | .null => "null"
  | .bool value => if value then "true" else "false"
  | .int value => toString value
  | .text value => quote value
  | .list [] => "[]"
  | .list items => "[" ++ prettyItems (level + 1) items ++ lineAt level ++ "]"
  | .object [] => "\x7b\x7d"
  | .object fields => "\x7b" ++ prettyFields (level + 1) fields ++ lineAt level ++ "\x7d"

def prettyItems (level : Nat) : List Content → String
  | [] => ""
  | [item] => lineAt level ++ prettyAt level item
  | item :: rest => lineAt level ++ prettyAt level item ++ "," ++ prettyItems level rest

def prettyFields (level : Nat) : List (String × Content) → String
  | [] => ""
  | [(name, value)] => lineAt level ++ quote name ++ ": " ++ prettyAt level value
  | (name, value) :: rest =>
    lineAt level ++ quote name ++ ": " ++ prettyAt level value ++ "," ++ prettyFields level rest

end

/-- The value with a line per item. -/
def pretty (content : Content) : String := prettyAt 0 content

end ScriptLink.Content
