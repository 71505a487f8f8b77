import ScriptLink.Component

/-!
# Attaching a template

The template of a component is put on its default export. The exports may have none, or one that
takes no template; nothing else of them is touched.

* **`Unattachable`** — exports that take no template, and **`attach?_eq_none_iff`**.
* **`Attached`** — what the exports are like with a template on them, by the keys of the exports and
  of the default export; **`attached_of_attach?`**.
* **`attachInPlace`** — the same in place, one entry after the other, as far as it goes.
  **`attachInPlace_eq`** — a refusal leaves the exports as they were.
-/

namespace ScriptLink

namespace Fields

/-- The second of two writes to one field counts. -/
theorem insert_insert (name : String) (first second : Content) (fields : Fields) :
    insert name second (insert name first fields) = insert name second fields := by
  induction fields with
  | nil => simp [Fields.insert]
  | cons field rest ih =>
    obtain ⟨known, old⟩ := field
    by_cases hname : name = known
    · simp [Fields.insert, hname]
    · by_cases hlt : name < known
      · simp [Fields.insert, hname, hlt]
      · simp [Fields.insert, hname, hlt, ih]

end Fields

namespace Component

variable {template : String} {exports attached : Content} {fields inner : Fields}

/-- Exports that are no object, or whose default export is neither an object nor null. -/
def Unattachable (exports : Content) : Prop :=
  (∀ fields, exports ≠ .object fields) ∨
    ∃ fields value, exports = .object fields ∧ Fields.get? defaultName fields = some value ∧
      value ≠ .null ∧ ∀ inner, value ≠ .object inner

/-- The fields of the default export, of which a missing one and null have none. -/
inductive DefaultFields (fields : Fields) : Fields → Prop where
  | missing (hdefault : Fields.get? defaultName fields = none) : DefaultFields fields []
  | null (hdefault : Fields.get? defaultName fields = some .null) : DefaultFields fields []
  | object {inner : Fields} (hdefault : Fields.get? defaultName fields = some (.object inner)) :
      DefaultFields fields inner

/-- Exports have a default export that takes a template, or are refused. -/
theorem defaultFields_or_unattachable (fields : Fields) :
    (∃ inner, DefaultFields fields inner) ∨ Unattachable (.object fields) := by
  cases hdefault : Fields.get? defaultName fields with
  | none => exact Or.inl ⟨[], .missing hdefault⟩
  | some value =>
    cases value with
    | null => exact Or.inl ⟨[], .null hdefault⟩
    | object inner => exact Or.inl ⟨inner, .object hdefault⟩
    | _ => exact Or.inr (Or.inr ⟨fields, _, rfl, hdefault, by simp, by simp⟩)

/-- The template is set on the fields of the default export. -/
theorem attach?_of_defaultFields (h : DefaultFields fields inner) :
    attach? template (.object fields) = some (.object (Fields.insert defaultName
      (.object (Fields.insert templateName (.text template) inner)) fields)) := by
  cases h with
  | missing hdefault => simp [attach?, hdefault, Fields.insert]
  | null hdefault => simp [attach?, hdefault, Fields.insert]
  | object hdefault => simp [attach?, hdefault]

theorem attach?_of_unattachable (h : Unattachable exports) : attach? template exports = none := by
  rcases h with hobject | ⟨fields, value, rfl, hdefault, hnull, hinner⟩
  · cases exports with
    | object fields => exact absurd rfl (hobject fields)
    | _ => rfl
  · cases value with
    | null => exact absurd rfl hnull
    | object inner => exact absurd rfl (hinner inner)
    | _ => simp [attach?, hdefault]

/-- **A template is refused** by exports that are no object and by those whose default export is
neither an object nor null, and by no others. -/
theorem attach?_eq_none_iff : attach? template exports = none ↔ Unattachable exports := by
  refine ⟨fun h => ?_, attach?_of_unattachable⟩
  cases exports with
  | object fields =>
    rcases defaultFields_or_unattachable fields with ⟨inner, hinner⟩ | hrefused
    · exact absurd ((attach?_of_defaultFields hinner).symm.trans h) (by simp)
    · exact hrefused
  | _ => exact Or.inl (by simp)

theorem exists_attach?_eq_some (template : String) (h : ¬ Unattachable exports) :
    ∃ attached, attach? template exports = some attached :=
  Option.ne_none_iff_exists'.mp (mt attach?_eq_none_iff.mp h)

/-- What exports are like with the template on them: the default export is an object with the
template and otherwise the fields that it had, and all other exports are as before. -/
def Attached (template : String) (exports attached : Content) : Prop :=
  ∃ fields inner fields' inner', exports = .object fields ∧ DefaultFields fields inner ∧
    attached = .object fields' ∧ Fields.get? defaultName fields' = some (.object inner') ∧
    Fields.get? templateName inner' = some (.text template) ∧
    (∀ key, key ≠ defaultName → Fields.get? key fields' = Fields.get? key fields) ∧
    ∀ key, key ≠ templateName → Fields.get? key inner' = Fields.get? key inner

/-- **Nothing but the template is attached.** -/
theorem attached_of_attach? (h : attach? template exports = some attached) :
    Attached template exports attached := by
  cases exports with
  | object fields =>
    rcases defaultFields_or_unattachable fields with ⟨inner, hinner⟩ | hrefused
    · obtain rfl := Option.some.inj ((attach?_of_defaultFields hinner).symm.trans h)
      exact ⟨fields, inner, _, _, rfl, hinner, rfl, Fields.get?_insert_self _ _ _,
        Fields.get?_insert_self _ _ _, fun key hkey => Fields.get?_insert_of_ne hkey _ _,
        fun key hkey => Fields.get?_insert_of_ne hkey _ _⟩
    · exact absurd ((attach?_of_unattachable hrefused).symm.trans h) (by simp)
  | _ => exact absurd h (by simp [attach?])

/-! ## In place -/

/-- Attaches a template entry by entry: a default export is made if there is none, a null is
replaced by an object, and then the template is set. The answer holds the exports as they are then
and whether the template is on them. -/
def attachInPlace (template : String) : Content → Content × Bool
  | .object fields =>
    let entered := if (Fields.get? defaultName fields).isSome then fields
      else Fields.insert defaultName .null fields
    let replaced := match Fields.get? defaultName entered with
      | some .null => Fields.insert defaultName (.object []) entered
      | _ => entered
    match Fields.get? defaultName replaced with
    | some (.object inner) =>
      (.object (Fields.insert defaultName
        (.object (Fields.insert templateName (.text template) inner)) replaced), true)
    | _ => (.object replaced, false)
  | exports => (exports, false)

/-- **A refused template leaves the exports as they were**, though entries are made and replaced
before the last check. -/
theorem attachInPlace_eq (template : String) (exports : Content) :
    attachInPlace template exports =
      match attach? template exports with
      | some attached => (attached, true)
      | none => (exports, false) := by
  cases exports with
  | object fields =>
    cases hdefault : Fields.get? defaultName fields with
    | none =>
      rw [attach?_of_defaultFields (.missing hdefault)]
      simp [attachInPlace, hdefault, Fields.get?_insert_self, Fields.insert_insert]
    | some value =>
      cases value with
      | null =>
        rw [attach?_of_defaultFields (.null hdefault)]
        simp [attachInPlace, hdefault, Fields.get?_insert_self, Fields.insert_insert]
      | object inner =>
        rw [attach?_of_defaultFields (.object hdefault)]
        simp [attachInPlace, hdefault]
      | _ => simp [attachInPlace, attach?, hdefault]
  | _ => rfl

end Component

end ScriptLink
