/-!
# Template text

Between its back-ticks a template literal is text, interrupted by interpolations. A segment
is a stretch of that text: it ends with the closing back-tick, or stops before the opener of
an interpolation. A backslash takes the character after it along.
-/

namespace ScriptLink.Template

/-- A stretch of template text. `closes` says that it holds the closing back-tick. -/
structure Segment where
  text : List Char
  closes : Bool
  deriving DecidableEq, Repr

/-- The segment with one more character in front. -/
def Segment.cons (c : Char) (segment : Segment) : Segment :=
  { segment with text := c :: segment.text }

/-- The segment at the start of `s`; none if the text ends before the segment does. -/
def segment? : List Char → Option Segment
  | [] => none
  | '\\' :: [] => none
  | '\\' :: c :: rest => (segment? rest).map fun seg => (seg.cons c).cons '\\'
  | '\x60' :: _ => some ⟨['\x60'], true⟩
  | '$' :: '\x7b' :: _ => some ⟨[], false⟩
  | c :: rest => (segment? rest).map (·.cons c)

end ScriptLink.Template
