import ScriptLink.Markup.Occurrence
import ScriptLink.Unicode.Blank
import ScriptLink.Unicode.Word

/-!
# Tags

The pieces that tags are made of, each as a pattern: words with or without regard to case,
attributes in quotes, opening and closing tags, and an element with the text up to its first
closing tag. No tag is nested here and no text is interpreted; a tag ends at its first `>`.
-/

namespace ScriptLink.Markup

/-- The case folding of tag names: ASCII letters, and the two other characters that fold to
ASCII letters, the long s and the Kelvin sign. -/
def foldCase (c : Char) : Char :=
  if c = '\u017f' then 's' else if c = '\u212a' then 'k' else c.toLower

/-- The rest behind `word`, where the text is compared after `fold`. -/
def word? (fold : Char → Char) : List Char → List Char → Option (List Char)
  | [], text => some text
  | _ :: _, [] => none
  | w :: word, c :: text => if fold c = w then word? fold word text else none

/-- The rest behind white space. -/
def blanks (text : List Char) : List Char := text.dropWhile Unicode.isBlank

/-- The rest behind white space of which there is some. -/
def blanks? : List Char → Option (List Char)
  | [] => none
  | c :: rest => if Unicode.isBlank c then some (blanks rest) else none

def isQuote (c : Char) : Bool := c == '\x22' || c == '\x27'

/-- The rest behind a quote of either kind. -/
def quote? : List Char → Option (List Char)
  | [] => none
  | c :: rest => if isQuote c then some rest else none

/-- White space, an attribute of the given name, and its value in quotes, which is not empty
and holds characters of a class only. The two quotes need not be of one kind. -/
def attribute? (fold : Char → Char) (name : String) (isValue : Char → Bool) :
    Pattern (List Char) := fun text => do
  let text ← blanks? text
  let text ← word? fold name.toList text
  let text ← word? id ['='] (blanks text)
  let text ← quote? (blanks text)
  let value := text.takeWhile isValue
  let rest ← quote? (text.dropWhile isValue)
  if value = [] then none else some (value, rest)

/-- The rest behind the end of a tag, which may close itself. -/
def tagEnd? (text : List Char) : Option (List Char) :=
  let text := blanks text
  word? id ['>'] ((word? id ['/'] text).getD text)

/-- Whether a word ends before `text`. -/
def wordEnds (text : List Char) : Bool := !text.head?.any Unicode.isWord

/-- The rest behind a tag name and everything through the next `>`. -/
def tagRest? (name : String) (text : List Char) : Option (List Char) := do
  let text ← word? foldCase name.toList text
  if wordEnds text then word? id ['>'] (text.dropWhile (· != '>')) else none

/-- The rest behind a closing tag. -/
def closeTag? (name : String) (text : List Char) : Option (List Char) := do
  let text ← word? foldCase ('<' :: '/' :: name.toList) text
  word? id ['>'] (blanks text)

/-- The text before the first closing tag, and the rest behind that tag. -/
def untilClose? (name : String) : Pattern (List Char)
  | [] => none
  | c :: rest =>
    match closeTag? name (c :: rest) with
    | some tail => some ([], tail)
    | none => (untilClose? name rest).map fun (text, tail) => (c :: text, tail)

/-- An element: an opening tag, and the text up to the first closing tag. -/
def element? (name : String) : Pattern (List Char) := fun text => do
  let text ← word? id ['<'] text
  let text ← tagRest? name text
  untilClose? name text

/-- An opening or a closing tag; the answer is whether it closes. -/
def tag? (name : String) : Pattern Bool := fun text => do
  let text ← word? id ['<'] text
  match word? id ['/'] text with
  | some text => (tagRest? name text).map (true, ·)
  | none => (tagRest? name text).map (false, ·)

end ScriptLink.Markup
