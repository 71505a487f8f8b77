/-!
# Regular expression literals

`/body/flags` is taken for a regular expression only where an expression could end after it:
before one of `. ; , ) ]` and the closing brace, a line break or the end of the text, blanks
aside. Everything else is a division.
-/

namespace ScriptLink.RegExp

def isLineBreak (c : Char) : Bool := c == '\n' || c == '\r'

/-- The body up to the next unescaped slash, and what follows that slash. -/
def body? : List Char → Option (List Char × List Char)
  | [] => none
  | '\\' :: [] => none
  | '\\' :: c :: rest =>
    if isLineBreak c then none
    else (body? rest).map fun (body, tail) => ('\\' :: c :: body, tail)
  | c :: rest =>
    if isLineBreak c then none
    else if c == '/' then some ([], rest)
    else (body? rest).map fun (body, tail) => (c :: body, tail)

def isFlag (c : Char) : Bool :=
  c == 'g' || c == 'i' || c == 'm' || c == 's' || c == 'u' || c == 'y'

/-- Whether an expression can end before `s`. -/
def endsExpression (s : List Char) : Bool :=
  match s.dropWhile fun c => c == ' ' || c == '\t' with
  | [] => true
  | c :: _ =>
    c == '.' || c == ';' || c == ',' || c == ')' || c == ']' || c == '\x7d' || isLineBreak c

/-- The literal at the start of `s`; the first character is taken to be its slash. -/
def literal? : List Char → Option (List Char)
  | [] => none
  | slash :: rest =>
    match body? rest with
    | none | some ([], _) => none
    | some (body, tail) =>
      let flags := tail.takeWhile isFlag
      if endsExpression (tail.dropWhile isFlag) then some (slash :: (body ++ '/' :: flags))
      else none

end ScriptLink.RegExp
