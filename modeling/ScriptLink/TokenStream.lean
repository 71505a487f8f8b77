import ScriptLink.Token
import ScriptLink.Tokenization

/-!
# Token streams

All tokens of one text in order, each found by its index. A token knows its nearest
neighbours that are no trivia; the links are made once, when the stream is built, and stay
as they are when kinds change later. A token also holds the text at its span, or none if the
span is no slice of the source, and possibly a text that is to be written in its place.

* `TokenStream.ofMarks` builds a stream from kinds and spans of any origin.
* `tokenize` builds it from the pieces of a script, so that the texts make up the script.
* `sourceText` puts the texts together again, `render` puts the replacements in.
-/

namespace ScriptLink

/-- A token of a stream. -/
structure Token where
  kind : TokenKind
  span : Span
  /-- the source at the span, if the span is a slice of it -/
  text : Option String
  /-- the nearest token before this one that is no trivia -/
  prev : Option Nat
  /-- the nearest token after this one that is no trivia -/
  next : Option Nat
  /-- what is written in place of the text -/
  replacement : Option String
  deriving DecidableEq, Repr

namespace Token

/-- The text of the token; empty if its span is no slice of the source. -/
def lexeme (token : Token) : String := token.text.getD ""

/-- What the token contributes to the output. -/
def written (token : Token) : String := token.replacement.getD token.lexeme

end Token

/-- The tokens of one text, in order. -/
structure TokenStream where
  tokens : Array Token
  deriving DecidableEq, Repr

namespace TokenStream

/-- Tokens for the marks from index `index` on, where `last` is the nearest token before them
that is no trivia; also the first of them that is none. The link backwards is handed down
the list, the link forwards comes back up. -/
def link (source : String) (index : Nat) (last : Option Nat) :
    List Mark → List Token × Option Nat
  | [] => ([], none)
  | mark :: rest =>
    let isTrivia := mark.kind.isTrivia
    let (tokens, first) := link source (index + 1) (if isTrivia then last else some index) rest
    let token : Token :=
      ⟨mark.kind, mark.span, slice? source mark.span.start mark.span.stop, last, first, none⟩
    (token :: tokens, if isTrivia then first else some index)

/-- The stream with the given kinds and spans. -/
def ofMarks (source : String) (marks : List Mark) : TokenStream :=
  ⟨(link source 0 none marks).1.toArray⟩

def size (stream : TokenStream) : Nat := stream.tokens.size

def isEmpty (stream : TokenStream) : Bool := stream.tokens.isEmpty

/-- The token with index `id`. -/
def get? (stream : TokenStream) (id : Nat) : Option Token := stream.tokens[id]?

def kind? (stream : TokenStream) (id : Nat) : Option TokenKind := (stream.get? id).map (·.kind)

/-- The text of a token; empty for an unknown index. -/
def lexeme (stream : TokenStream) (id : Nat) : String :=
  ((stream.get? id).map Token.lexeme).getD ""

/-- The nearest token before `id` that is no trivia. -/
def prev (stream : TokenStream) (id : Nat) : Option Nat := (stream.get? id).bind (·.prev)

/-- The nearest token after `id` that is no trivia. -/
def next (stream : TokenStream) (id : Nat) : Option Nat := (stream.get? id).bind (·.next)

/-- Whether there is a token and its text is the given one. -/
def reads (stream : TokenStream) (id : Option Nat) (text : String) : Bool :=
  id.any fun id => stream.lexeme id == text

/-- Gives a token another kind; nothing happens for an unknown index. -/
def setKind (stream : TokenStream) (id : Nat) (kind : TokenKind) : TokenStream :=
  ⟨stream.tokens.modify id fun token => { token with kind := kind }⟩

/-- Writes a text in place of a token; nothing happens for an unknown index. -/
def replace (stream : TokenStream) (id : Nat) (text : String) : TokenStream :=
  ⟨stream.tokens.modify id fun token => { token with replacement := some text }⟩

/-- The texts of all tokens, put together. -/
def sourceText (stream : TokenStream) : String :=
  String.join (stream.tokens.toList.map Token.lexeme)

/-- The texts of all tokens with their replacements, put together. -/
def render (stream : TokenStream) : String :=
  String.join (stream.tokens.toList.map Token.written)

/-- The span of a token begins here; zero for an unknown index. -/
def offset (stream : TokenStream) (id : Nat) : Nat :=
  ((stream.get? id).map (·.span.start)).getD 0

end TokenStream

/-- The token stream of a script, in which every name is still an identifier. -/
def tokenize (source : String) : Except Unterminated TokenStream :=
  (pieces source).map fun pieces => TokenStream.ofMarks source (Piece.locate 0 pieces)

end ScriptLink
