import ScriptLink.Console.Command
import ScriptLink.ReservedWord
import ScriptLink.Terminal
import ScriptLink.Text.Bytes
import ScriptLink.Unicode.Alphanumeric

/-!
# Completion

The word before the cursor is completed to the reserved words and the commands that it
begins. A word is taken to start one byte after the beginning of the last character that
cannot stand in a word, so behind a separator of several bytes there is no word to be had,
not even an empty one, and the questions have no answer.
-/

namespace ScriptLink.Console

/-- The names of the commands. -/
def commandNames : List String :=
  Command.usages.map fun usage => String.ofList (usage.1.toList.takeWhile (· != ' '))

/-- The words that are offered, in order. -/
def words : List String := reservedWords ++ commandNames

/-- Whether a character can stand in a word. -/
def isInWord (c : Char) : Bool := Unicode.isAlphanumeric c || c == '_' || c == '.'

/-- Where the word at the end of the characters starts. -/
def wordStart (before : List Char) : Nat :=
  match before.reverse.dropWhile isInWord with
  | [] => 0
  | _ :: earlier => byteLength earlier.reverse + 1

/-- The word that ends at a position of a line. -/
def word? (line : String) (position : Nat) : Option String := do
  let before ← slice? line 0 position
  slice? line (wordStart before.toList) position

/-- What has to be added to a word for another one, if it begins that one. -/
def completion? (start word : String) : Option String :=
  if start.toList.isPrefixOf word.toList then
    some (String.ofList (word.toList.drop start.length))
  else none

/-- The words that the word at a position begins, each with what has to be added for it. -/
def complete? (line : String) (position : Nat) : Option (List (String × String)) :=
  (word? line position).map fun start =>
    if start = "" then []
    else words.filterMap fun word => (completion? start word).map (word, ·)

/-- What is shown behind the cursor at the end of a line: the addition for the first longer
word. A word of one byte gets no hint. -/
def hint? (line : String) (position : Nat) : Option (Option String) :=
  if position < line.utf8ByteSize then some none
  else
    (word? line position).map fun start =>
      if start.utf8ByteSize < 2 then none
      else
        ((words.filterMap (completion? start)).find? (· != "")).map (paint [.dimmed])

end ScriptLink.Console
