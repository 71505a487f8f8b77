import ScriptLink.Text.Bytes

/-!
# Kinds of tokens and where they stand

A token has a kind and a span of byte positions. Comments and white space are *trivia*: they
are kept, so that the text can be rebuilt, and skipped wherever the neighbours of a token
are asked for.
-/

namespace ScriptLink

/-- The part of a text from byte `start` up to byte `stop`. -/
structure Span where
  start : Nat
  stop : Nat
  deriving DecidableEq, Repr

namespace Span

/-- The number of bytes in the span. -/
def length (span : Span) : Nat := span.stop - span.start

def isEmpty (span : Span) : Bool := span.start == span.stop

end Span

/-- The forms of a numeric literal. -/
inductive NumberKind where
  /-- `0xFF`, also with a final `n` -/
  | hex
  /-- `0o17` and the old `017` -/
  | octal
  /-- `0b101` -/
  | binary
  /-- digits and an exponent without a fraction, `1e10` -/
  | exponent
  /-- digits with a fraction, `1_000.5e-3` -/
  | float
  /-- digits alone, `1_000` -/
  | integer
  /-- decimal digits with a final `n` -/
  | bigInt
  deriving DecidableEq, Repr

/-- What a token is. -/
inductive TokenKind where
  /-- a name; the classification may still turn it into a keyword -/
  | identifier
  /-- a reserved word that is not used as a property name, or the arrow -/
  | keyword
  /-- a literal in single or double quotes -/
  | string
  /-- a stretch of template text, with the back-ticks it begins or ends at -/
  | template
  | regexp
  | number (form : NumberKind)
  /-- a bracket of any shape; the opener of an interpolation is one too -/
  | bracket
  /-- a semicolon, comma or dot, and every character without another meaning -/
  | delimiter
  | operator
  | comment
  /-- a block comment that begins with two stars -/
  | docComment
  | whitespace
  deriving DecidableEq, Repr

namespace TokenKind

/-- The name under which listings show the kind. -/
def name : TokenKind → String
  | identifier => "identifier"
  | keyword => "keyword"
  | string => "string"
  | template => "string.template"
  | regexp => "regexp"
  | number .hex => "number.hex"
  | number .octal => "number.octal"
  | number .binary => "number.binary"
  | number .exponent => "number.exponent"
  | number .float => "number.float"
  | number .integer => "number"
  | number .bigInt => "number.bigint"
  | bracket => "bracket"
  | delimiter => "delimiter"
  | operator => "operator"
  | comment => "comment"
  | docComment => "comment.doc"
  | whitespace => "whitespace"

/-- Every kind. -/
def all : List TokenKind :=
  [identifier, keyword, string, template, regexp, number .hex, number .octal, number .binary,
    number .exponent, number .float, number .integer, number .bigInt, bracket, delimiter,
    operator, comment, docComment, whitespace]

/-- The kind with the given name. -/
def ofName? (text : String) : Option TokenKind := all.find? (·.name == text)

/-- White space and comments. -/
def isTrivia : TokenKind → Bool
  | comment | docComment | whitespace => true
  | _ => false

theorem mem_all (kind : TokenKind) : kind ∈ all := by
  cases kind with
  | number form => cases form <;> simp [all]
  | _ => simp [all]

end TokenKind

/-- One lexeme as the scanner takes it off the text: its kind and its characters. -/
structure Piece where
  kind : TokenKind
  text : List Char
  deriving DecidableEq, Repr

/-- A kind at a place of the text. -/
structure Mark where
  kind : TokenKind
  span : Span
  deriving DecidableEq, Repr

/-- Pieces that follow each other from byte `start`, each with its span. -/
def Piece.locate (start : Nat) : List Piece → List Mark
  | [] => []
  | piece :: rest =>
    let stop := start + byteLength piece.text
    ⟨piece.kind, start, stop⟩ :: Piece.locate stop rest

end ScriptLink
