/-!
# Occurrences of a pattern

A pattern looks at the beginning of a text and answers what it found together with the rest
of the text. `occurrences` lists where it is found in a whole text, from left to right and
without overlaps: the search goes on behind each find.
-/

namespace ScriptLink.Markup

/-- What a pattern finds at the beginning of a text, and the rest behind it. -/
abbrev Pattern (α : Type) := List Char → Option (α × List Char)

/-- A find: the characters from `start` up to `stop`, and what the pattern says of them. -/
structure Occurrence (α : Type) where
  start : Nat
  stop : Nat
  value : α
  deriving Repr

/-- The finds in a text that begins at character `position`; the first `skip` characters
belong to the find before. -/
def occurrencesFrom {α : Type} (pattern : Pattern α) (position skip : Nat) :
    List Char → List (Occurrence α)
  | [] => []
  | c :: rest =>
    match skip with
    | skip + 1 => occurrencesFrom pattern (position + 1) skip rest
    | 0 =>
      match pattern (c :: rest) with
      | none => occurrencesFrom pattern (position + 1) 0 rest
      | some (value, tail) =>
        let length := (c :: rest).length - tail.length
        ⟨position, position + length, value⟩ ::
          occurrencesFrom pattern (position + 1) (length - 1) rest

/-- All finds in a text. -/
def occurrences {α : Type} (pattern : Pattern α) (text : List Char) : List (Occurrence α) :=
  occurrencesFrom pattern 0 0 text

end ScriptLink.Markup
