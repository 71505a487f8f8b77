import ScriptLink.Path
import ScriptLink.Text.Bytes

/-!
# Files

A `FileTree` is a directory with files in it and below it. Looking up a path goes from the
directory to the file one segment at a time; empty segments and `.` stay where they are,
`..` goes up, and a path may leave the directory, although nothing is found outside of it.
Paths and names are of limited size, and some paths are refused before any file is looked up.

A `Reading` is a computation that reads files: it is either done or knows which file it
wants next. `Reading.run` lets it run on a table of files; how it runs on a disk is a matter
of the outermost layer.
-/

namespace ScriptLink

/-- Why a file cannot be read. -/
inductive FileError where
  | absent
  | notDirectory
  | isDirectory
  /-- the path, or a name on the way, is longer than names can be -/
  | nameTooLong
  /-- the path has a null character -/
  | nullCharacter
  deriving DecidableEq, Repr

namespace FileError

def message : FileError → String
  | absent => "No such file or directory (os error 2)"
  | notDirectory => "Not a directory (os error 20)"
  | isDirectory => "Is a directory (os error 21)"
  | nameTooLong => "File name too long (os error 36)"
  | nullCharacter => "file name contained an unexpected NUL byte"

/-- The size of the longest path, in bytes. -/
def pathLimit : Nat := 4095

/-- The size of the longest name of a file or directory, in bytes. -/
def nameLimit : Nat := 255

/-- Why a path leads nowhere, whatever files there are. -/
def ofPath? (path : String) : Option FileError :=
  if '\x00' ∈ path.toList then some nullCharacter
  else if path = "" then some absent
  else if pathLimit < path.utf8ByteSize then some nameTooLong
  else none

/-- Why there is no entry of a name that is not found. -/
def ofName (name : Path.Segment) : FileError :=
  if nameLimit < byteLength name then nameTooLong else absent

end FileError

/-- The files in and below a directory: their paths and texts. -/
abbrev FileTree := List (String × String)

namespace FileTree

/-- How far a path has led. -/
inductive Place where
  /-- a directory below the top, by the segments that lead to it -/
  | directory (segments : List Path.Segment)
  | file (text : String)
  /-- a directory that does not belong to the tree -/
  | outside

/-- Goes from a directory to the entry of the given name. -/
def enter (tree : FileTree) (directory : List Path.Segment) (name : Path.Segment) :
    Except FileError Place :=
  let segments := directory ++ [name]
  match tree.find? fun entry => Path.segments entry.1.toList == segments with
  | some entry => .ok (.file entry.2)
  | none =>
    if tree.any fun entry => segments.isPrefixOf (Path.segments entry.1.toList) then
      .ok (.directory segments)
    else .error (.ofName name)

/-- Follows one segment of a path. -/
def follow (tree : FileTree) (place : Place) (segment : Path.Segment) : Except FileError Place :=
  match place with
  | .file _ => .error .notDirectory
  | .outside =>
    if segment = [] ∨ segment = Path.here ∨ segment = Path.up then .ok .outside
    else .error (.ofName segment)
  | .directory segments =>
    if segment = [] ∨ segment = Path.here then .ok place
    else if segment = Path.up then
      .ok (if segments = [] then .outside else .directory segments.dropLast)
    else tree.enter segments segment

/-- The text of the file that a path leads to. -/
def read (tree : FileTree) (path : String) : Except FileError String :=
  match FileError.ofPath? path with
  | some error => .error error
  | none =>
    let top : Place := if path.startsWith "/" then .outside else .directory []
    match (Path.segments path.toList).foldlM tree.follow top with
    | .ok (.file text) => .ok text
    | .ok _ => .error .isDirectory
    | .error error => .error error

end FileTree

/-- A computation that reads files. -/
inductive Reading (α : Type) where
  | done (value : α)
  | read (path : String) (next : Except FileError String → Reading α)

namespace Reading

/-- Goes on with another computation. -/
def bind {α β : Type} : Reading α → (α → Reading β) → Reading β
  | done value, continuation => continuation value
  | read path next, continuation => read path fun text => (next text).bind continuation

instance : Monad Reading where
  pure := done
  bind := bind

/-- Reads one file. -/
def file (path : String) : Reading (Except FileError String) := read path done

/-- The result on the given files. -/
def run {α : Type} (files : String → Except FileError String) : Reading α → α
  | done value => value
  | read path next => (next (files path)).run files

@[simp] theorem run_pure {α : Type} (files : String → Except FileError String) (value : α) :
    (pure value : Reading α).run files = value := rfl

@[simp] theorem run_bind {α β : Type} (files : String → Except FileError String)
    (first : Reading α) (second : α → Reading β) :
    (first >>= second).run files = (second (first.run files)).run files := by
  induction first with
  | done value => rfl
  | read path next ih => exact ih (files path)

@[simp] theorem run_file (files : String → Except FileError String) (path : String) :
    (file path).run files = files path := rfl

end Reading

end ScriptLink
