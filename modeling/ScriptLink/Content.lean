/-!
# What modules export

The content of a module is a value of plain data: nothing, a truth value, an integer, a text,
a list, or an object. The fields of an object are kept in ascending order of their names,
each name once; `Content.insert` keeps it so, and `Content.object` values are otherwise made
by `Content.ofFields` alone.
-/

namespace ScriptLink

/-- A value of plain data. -/
inductive Content where
  | null
  | bool (value : Bool)
  | int (value : Int)
  | text (value : String)
  | list (items : List Content)
  | object (fields : List (String × Content))
  deriving Repr, BEq, Inhabited

/-- The fields of an object. -/
abbrev Fields := List (String × Content)

namespace Fields

/-- The value of a field. -/
def get? (name : String) : Fields → Option Content
  | [] => none
  | (known, value) :: rest => if known = name then some value else get? name rest

/-- Sets a field: its old value is replaced, and a new one takes its place in the order. -/
def insert (name : String) (value : Content) : Fields → Fields
  | [] => [(name, value)]
  | (known, old) :: rest =>
    if name = known then (name, value) :: rest
    else if name < known then (name, value) :: (known, old) :: rest
    else (known, old) :: insert name value rest

theorem get?_insert_self (name : String) (value : Content) (fields : Fields) :
    get? name (insert name value fields) = some value := by
  induction fields with
  | nil => simp [insert, get?]
  | cons field rest ih =>
    obtain ⟨known, old⟩ := field
    simp only [insert]
    split
    · simp [get?]
    · next h =>
      split
      · simp [get?]
      · simp [get?, Ne.symm h, ih]

theorem get?_insert_of_ne {name other : String} (h : other ≠ name) (value : Content)
    (fields : Fields) : get? other (insert name value fields) = get? other fields := by
  induction fields with
  | nil => simp [insert, get?, Ne.symm h]
  | cons field rest ih =>
    obtain ⟨known, old⟩ := field
    simp only [insert]
    split
    · next heq => subst heq; simp [get?, Ne.symm h]
    · split
      · simp [get?, Ne.symm h]
      · simp [get?, ih]

end Fields

namespace Content

/-- The object with the given fields; of two fields of one name the later one counts. -/
def ofFields (fields : Fields) : Content :=
  .object (fields.foldl (fun object field => Fields.insert field.1 field.2 object) [])

/-- An object without fields: what a module sees of a dependency it did not wait for. -/
def emptyObject : Content := .object []

end Content

end ScriptLink
