import ScriptLink.TokenStream

/-!
# Reserved words

The scanner knows names only. The classification makes a keyword of a reserved word unless
its neighbours show that it names a property: a dot before it, or a colon behind it where an
entry of an object can begin. The arrow always becomes a keyword.

`classify` visits the tokens one after the other. A visit changes the kind of one token from
identifier or operator to keyword, and the guards of the others read texts and links only,
so no visit can disturb another.
-/

namespace ScriptLink

/-- The words that are keywords outside of property position. -/
def reservedWords : List String :=
  ["as", "async", "await", "break", "case", "catch", "class", "const", "continue", "debugger",
    "default", "delete", "do", "else", "export", "extends", "false", "finally", "for", "from",
    "function", "if", "import", "in", "instanceof", "interface", "let", "new", "null", "of",
    "return", "super", "switch", "this", "throw", "true", "try", "typeof", "var", "void",
    "while", "with", "yield"]

def isReserved (word : String) : Bool := reservedWords.contains word

namespace TokenStream

/-- The token follows a dot, plain or optional. -/
def isMember (stream : TokenStream) (id : Nat) : Bool :=
  stream.reads (stream.prev id) "." || stream.reads (stream.prev id) "?."

/-- The token stands between the beginning of an entry and a colon. -/
def isKey (stream : TokenStream) (id : Nat) : Bool :=
  stream.reads (stream.next id) ":" &&
    (stream.reads (stream.prev id) "\x7b" || stream.reads (stream.prev id) ",")

/-- Whether the classification makes a keyword of the token. -/
def isPromoted (stream : TokenStream) (id : Nat) : Bool :=
  match stream.kind? id with
  | some .operator => stream.lexeme id == "=>"
  | some .identifier =>
    isReserved (stream.lexeme id) && !stream.isMember id && !stream.isKey id
  | _ => false

/-- Classifies one token. -/
def classifyAt (stream : TokenStream) (id : Nat) : TokenStream :=
  if stream.isPromoted id then stream.setKind id .keyword else stream

/-- Classifies every token, from the first to the last. -/
def classify (stream : TokenStream) : TokenStream :=
  (List.range stream.size).foldl classifyAt stream

end TokenStream

end ScriptLink
