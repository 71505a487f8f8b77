/-!
# Comments

A line comment runs up to the next line break, which is not part of it. A block comment ends
at the first closing mark after its opener; the three characters that open a documentation
comment are passed over first, so `/**/` is an ordinary block comment.
-/

namespace ScriptLink.Comment

/-- The text up to the next line feed or carriage return. -/
def line (s : List Char) : List Char := s.takeWhile fun c => c != '\n' && c != '\r'

/-- The text through the first `*/`. -/
def throughClose? : List Char → Option (List Char)
  | [] => none
  | '*' :: '/' :: _ => some ['*', '/']
  | c :: rest => (throughClose? rest).map (c :: ·)

/-- Whether the text after `/*` makes the comment a documentation comment. -/
def isDoc : List Char → Bool
  | '*' :: '/' :: _ => false
  | '*' :: _ => true
  | _ => false

/-- The rest of a block comment, from the character after `/*` on. -/
def block? (rest : List Char) : Option (List Char) :=
  if isDoc rest then (throughClose? (rest.drop 1)).map ('*' :: ·) else throughClose? rest

end ScriptLink.Comment
