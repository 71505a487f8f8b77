/-!
# Module paths

A path is a text of segments with slashes between them; no file system is asked. A target is
resolved against the path of the module that names it: the module's own last segment is
dropped, its leading `.` segments do not count, and the segments of the target are applied
one by one. Going up from the root stays at the root, and empty segments are segments.
-/

namespace ScriptLink.Path

/-- One segment of a path. -/
abbrev Segment := List Char

/-- The segments of a path; there is always at least one. -/
def segments : List Char → List Segment
  | [] => [[]]
  | c :: rest =>
    if c = '/' then [] :: segments rest
    else
      match segments rest with
      | [] => [[c]]
      | first :: others => (c :: first) :: others

/-- The path with the given segments. -/
def ofSegments : List Segment → List Char
  | [] => []
  | [last] => last
  | first :: rest => first ++ '/' :: ofSegments rest

def here : Segment := ['.']

def up : Segment := ['.', '.']

/-- The directory that a module at the path stands in. -/
def directory (referrer : List Char) : List Segment :=
  ((segments referrer).dropWhile (· == here)).dropLast

/-- Goes one segment on from a directory or path. -/
def apply (place : List Segment) (segment : Segment) : List Segment :=
  if segment = here then place
  else if segment = up then place.dropLast
  else place ++ [segment]

/-- The path that `target` names in the module `referrer`. -/
def resolve (referrer target : String) : String :=
  String.ofList (ofSegments ((segments target.toList).foldl apply (directory referrer.toList)))

/-- What follows the last dot of a path, or all of it if there is none; this picks the
loader. -/
def suffix (path : String) : String :=
  String.ofList (path.toList.reverse.takeWhile (· != '.')).reverse

theorem segments_ne_nil (path : List Char) : segments path ≠ [] := by
  cases path with
  | nil => simp [segments]
  | cons c rest =>
    simp only [segments]
    split
    · simp
    · split <;> simp

/-- Taking a path apart and putting it together again gives the path. -/
theorem ofSegments_segments (path : List Char) : ofSegments (segments path) = path := by
  induction path with
  | nil => rfl
  | cons c rest ih =>
    simp only [segments]
    split
    · next h =>
      subst h
      cases hs : segments rest with
      | nil => exact absurd hs (segments_ne_nil rest)
      | cons first others => rw [hs] at ih; simp [ofSegments, ih]
    · split
      · next hs => exact absurd hs (segments_ne_nil rest)
      · next first others hs =>
        rw [hs] at ih
        cases others with
        | nil => simp only [ofSegments] at ih ⊢; rw [ih]
        | cons second tail => simp only [ofSegments] at ih ⊢; rw [← ih]; rfl

end ScriptLink.Path
