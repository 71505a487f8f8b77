import ScriptLink.Identifier
import ScriptLink.Literal.Comment
import ScriptLink.Literal.Number
import ScriptLink.Literal.Quoted
import ScriptLink.Literal.RegExp
import ScriptLink.Literal.Template
import ScriptLink.Operator
import ScriptLink.SourceError
import ScriptLink.Unicode.Blank

/-!
# Taking a script apart into pieces

The scanner reads the whole text, white space and comments included, so that nothing is
lost. It works piece by piece: `Context.step` takes one piece off a text that is not empty
and says in which context the rest is read. A context is the mode, code or template text,
and the stack of the interpolations that are open; each of these counts the braces that are
open inside it, its own opener included, so that the brace that closes it is known.

A step names the characters of its piece *after* the first one. So every piece has a
character, the rest of the text is shorter, and `scan` ends.
-/

namespace ScriptLink

/-- An interpolation that is open: the number of unclosed braces in it, with its own, and the
place of the back-tick that opened the literal around it. -/
structure Interpolation where
  depth : Nat
  opened : Nat
  deriving DecidableEq, Repr

/-- What the text at hand is read as. -/
inductive Mode where
  /-- program text, also inside an interpolation -/
  | code
  /-- the text of the template literal whose back-tick stands at `opened` -/
  | template (opened : Nat)
  deriving DecidableEq, Repr

/-- Everything the scanner remembers: the mode and the open interpolations, innermost first. -/
structure Context where
  mode : Mode
  interpolations : List Interpolation
  deriving DecidableEq, Repr

/-- One step of the scanner: the kind of the piece, its characters after the first, and the
context of the text behind it. -/
structure Step where
  kind : TokenKind
  tail : List Char
  next : Context
  deriving DecidableEq, Repr

namespace Context

/-- The context at the start of a script. -/
def start : Context := ⟨.code, []⟩

/-- A brace opens inside the innermost interpolation. -/
def openBrace (context : Context) : Context :=
  match context.interpolations with
  | [] => context
  | top :: outer =>
    { context with interpolations := { top with depth := top.depth + 1 } :: outer }

/-- A brace closes. If it was the innermost interpolation's own, template text goes on. -/
def closeBrace (context : Context) : Context :=
  match context.interpolations with
  | [] => context
  | top :: outer =>
    if top.depth - 1 = 0 then ⟨.template top.opened, outer⟩
    else { context with interpolations := { top with depth := top.depth - 1 } :: outer }

/-- The opener of an interpolation in the literal that was opened at `opened`. -/
def openInterpolation (context : Context) (opened : Nat) : Context :=
  ⟨.code, ⟨1, opened⟩ :: context.interpolations⟩

/-- The context after a segment of the literal opened at `opened`. -/
def afterSegment (context : Context) (opened : Nat) (segment : Template.Segment) : Context :=
  { context with mode := if segment.closes then .code else .template opened }

/-- The text ends here: fine in code outside of every interpolation. -/
def finish (context : Context) : Except Unterminated Unit :=
  match context.mode, context.interpolations with
  | .template opened, _ => .error ⟨.template, opened⟩
  | .code, top :: _ => .error ⟨.template, top.opened⟩
  | .code, [] => .ok ()

/-- A piece that leaves the context alone. -/
def plain (context : Context) (kind : TokenKind) (tail : List Char) : Step :=
  ⟨kind, tail, context⟩

/-- An operator, or a character without any other meaning. -/
def operatorStep (context : Context) (c : Char) (rest : List Char) : Step :=
  match Operator.match? (c :: rest) with
  | some operator => context.plain .operator (operator.toList.drop 1)
  | none => context.plain .delimiter []

/-- What begins with a slash: a comment, a regular expression, or an operator. -/
def slashStep (context : Context) (position : Nat) (rest : List Char) :
    Except Unterminated Step :=
  match rest with
  | '/' :: _ => .ok (context.plain .comment (Comment.line rest))
  | '*' :: body =>
    let isDoc := Comment.isDoc body
    match Comment.block? body with
    | some text => .ok (context.plain (if isDoc then .docComment else .comment) ('*' :: text))
    | none => .error ⟨if isDoc then .docComment else .comment, position⟩
  | _ =>
    match RegExp.literal? ('/' :: rest) with
    | some literal => .ok (context.plain .regexp (literal.drop 1))
    | none => .ok (context.operatorStep '/' rest)

/-- One piece of program text that begins with `c`, at byte `position`. -/
def codeStep (context : Context) (position : Nat) (c : Char) (rest : List Char) :
    Except Unterminated Step :=
  if c = '\x7b' then .ok ⟨.bracket, [], context.openBrace⟩
  else if c = '\x7d' then .ok ⟨.bracket, [], context.closeBrace⟩
  else if c = '(' ∨ c = ')' ∨ c = '[' ∨ c = ']' then .ok (context.plain .bracket [])
  else if c = '\x60' then
    match Template.segment? rest with
    | some segment => .ok ⟨.template, segment.text, context.afterSegment position segment⟩
    | none => .error ⟨.template, position⟩
  else if c = '\x22' ∨ c = '\x27' then
    match Quoted.body? c rest with
    | some body => .ok (context.plain .string (body ++ [c]))
    | none => .error ⟨.string, position⟩
  else if c = '/' then context.slashStep position rest
  else if c.isDigit then
    match Number.literal? (c :: rest) with
    | some (form, text) => .ok (context.plain (.number form) (text.drop 1))
    | none => .ok (context.plain (.number .integer) [])
  else if Identifier.isStart c then
    .ok (context.plain .identifier (rest.takeWhile Identifier.isContinue))
  else if Unicode.isBlank c then .ok (context.plain .whitespace (rest.takeWhile Unicode.isBlank))
  else if Operator.isSeparator c ∧ ¬ ['.', '.', '.'].isPrefixOf (c :: rest) then
    .ok (context.plain .delimiter [])
  else .ok (context.operatorStep c rest)

/-- One piece of the text of the literal opened at `opened`: the opener of an interpolation
if one comes first, else the segment up to the next one or through the closing back-tick. -/
def templateStep (context : Context) (opened : Nat) (c : Char) (rest : List Char) :
    Except Unterminated Step :=
  match Template.segment? (c :: rest) with
  | none => .error ⟨.template, opened⟩
  | some ⟨[], _⟩ => .ok ⟨.bracket, ['\x7b'], context.openInterpolation opened⟩
  | some ⟨text, closes⟩ =>
    .ok ⟨.template, text.drop 1, context.afterSegment opened ⟨text, closes⟩⟩

/-- Takes one piece off the text `c :: rest`, which begins at byte `position`. -/
def step (context : Context) (position : Nat) (c : Char) (rest : List Char) :
    Except Unterminated Step :=
  match context.mode with
  | .code => context.codeStep position c rest
  | .template opened => context.templateStep opened c rest

/-- The pieces of `text`, read in the given context from byte `position` on. -/
def scan (context : Context) (position : Nat) (text : List Char) :
    Except Unterminated (List Piece) :=
  match text with
  | [] => context.finish.map fun _ => []
  | c :: rest =>
    match context.step position c rest with
    | .error error => .error error
    | .ok step =>
      let piece : Piece := ⟨step.kind, c :: step.tail⟩
      match step.next.scan (position + byteLength piece.text) (rest.drop step.tail.length) with
      | .error error => .error error
      | .ok pieces => .ok (piece :: pieces)
termination_by text.length
decreasing_by simp only [List.length_drop, List.length_cons]; omega

end Context

/-- The pieces of a whole script. -/
def pieces (source : String) : Except Unterminated (List Piece) :=
  Context.start.scan 0 source.toList

end ScriptLink
