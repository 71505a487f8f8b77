import ScriptLink.Proofs.Path
import ScriptLink.Trace

/-!
# Paths without dots

A specifier may go up and down the directories as it likes: `.` and `..` are steps that are taken
when it is resolved, and none of them is left in the path. What was in the directory of the referrer
stays, so the directory must not have such segments to begin with.

* **`Path.IsCanonical`** — a path without `.` and `..`. `Path.IsGrounded` — a referrer whose
  directory has none, apart from the `.` that it begins with.
* **`Path.isCanonical_resolve`** — what is resolved against a grounded referrer is canonical;
  and a canonical path is a grounded referrer (`IsCanonical.isGrounded`).
* **`Path.IsCanonical.resolve_here`** — resolving a canonical path gives it again.
* **`Path.IsCanonical.isBelow_filePath`** — the file of a canonical path lies below the root.
-/

namespace ScriptLink.Path

/-- A step in the directories instead of a name. -/
def IsDots (segment : Segment) : Prop := segment = here ∨ segment = up

instance (segment : Segment) : Decidable (IsDots segment) :=
  inferInstanceAs (Decidable (_ ∨ _))

/-- No segment of the path is `.` or `..`. -/
def IsCanonical (path : String) : Prop := ∀ segment ∈ segments path.toList, ¬ IsDots segment

instance (path : String) : Decidable (IsCanonical path) :=
  inferInstanceAs (Decidable (∀ segment ∈ segments path.toList, _))

/-- The directory part of the referrer has no `.` and no `..` behind the `.` segments that it begins
with. -/
def IsGrounded (referrer : String) : Prop :=
  ∀ segment ∈ (segments referrer.toList).dropLast.dropWhile (· == here), ¬ IsDots segment

instance (referrer : String) : Decidable (IsGrounded referrer) :=
  inferInstanceAs (Decidable (∀ segment ∈ _, _))

/-! ## Segments -/

/-- A segment has no slash. -/
theorem not_mem_of_mem_segments {chars : List Char} {segment : Segment}
    (h : segment ∈ segments chars) : '/' ∉ segment := by
  induction chars generalizing segment with
  | nil =>
    obtain rfl : segment = [] := by simpa [segments] using h
    exact List.not_mem_nil
  | cons c rest ih =>
    rw [segments] at h
    split at h
    · rcases List.mem_cons.mp h with rfl | hrest
      · exact List.not_mem_nil
      · exact ih hrest
    · next hc =>
      cases hrest : segments rest with
      | nil => exact absurd hrest (segments_ne_nil rest)
      | cons first others =>
        rw [hrest] at h ih
        rcases List.mem_cons.mp h with rfl | hothers
        · rw [List.mem_cons, not_or]
          exact ⟨Ne.symm hc, ih List.mem_cons_self⟩
        · exact ih (List.mem_cons_of_mem _ hothers)

/-- Segments that are put together to a path are the segments of the path. -/
theorem segments_ofSegments {parts : List Segment} (hne : parts ≠ [])
    (hslash : ∀ segment ∈ parts, '/' ∉ segment) : segments (ofSegments parts) = parts := by
  induction parts with
  | nil => exact absurd rfl hne
  | cons first rest ih =>
    have hfirst := hslash first List.mem_cons_self
    cases rest with
    | nil => exact segments_of_not_mem hfirst
    | cons second later =>
      show segments (first ++ '/' :: ofSegments (second :: later)) = _
      rw [segments_append, segments_of_not_mem hfirst,
        ih (List.cons_ne_nil _ _) fun segment hmem => hslash segment (List.mem_cons_of_mem _ hmem)]
      rfl

theorem dropLast_dropWhile {α : Type} (p : α → Bool) (items : List α) :
    (items.dropWhile p).dropLast = items.dropLast.dropWhile p := by
  induction items with
  | nil => rfl
  | cons first rest ih =>
    cases rest with
    | nil => cases hfirst : p first <;> simp [hfirst]
    | cons second later =>
      rw [List.dropLast_cons_cons]
      by_cases hfirst : p first = true
      · rw [List.dropWhile_cons_of_pos hfirst, List.dropWhile_cons_of_pos hfirst, ih]
      · rw [List.dropWhile_cons_of_neg hfirst, List.dropWhile_cons_of_neg hfirst,
          List.dropLast_cons_cons]

/-- The directory of a referrer, with the `.` segments dropped last. -/
theorem directory_eq (referrer : List Char) :
    directory referrer = (segments referrer).dropLast.dropWhile (· == here) :=
  dropLast_dropWhile _ _

/-! ## Resolving -/

/-- A place in the directories that is named by proper segments. -/
def IsPlain (place : List Segment) : Prop :=
  ∀ segment ∈ place, '/' ∉ segment ∧ ¬ IsDots segment

/-- One step keeps the place plain: dots are taken and not added. -/
theorem IsPlain.apply {place : List Segment} (h : IsPlain place) {segment : Segment}
    (hslash : '/' ∉ segment) : IsPlain (apply place segment) := by
  unfold Path.apply
  split
  · exact h
  · next hhere =>
    split
    · exact fun other hmem => h other (List.dropLast_subset _ hmem)
    · next hup =>
      intro other hmem
      rcases List.mem_append.mp hmem with hold | hnew
      · exact h other hold
      · obtain rfl := List.mem_singleton.mp hnew
        exact ⟨hslash, not_or.mpr ⟨hhere, hup⟩⟩

/-- Any number of steps keep the place plain. -/
theorem IsPlain.foldl {place : List Segment} (h : IsPlain place) {steps : List Segment}
    (hslash : ∀ segment ∈ steps, '/' ∉ segment) : IsPlain (steps.foldl Path.apply place) := by
  induction steps generalizing place with
  | nil => exact h
  | cons segment rest ih =>
    apply ih
    · exact h.apply (hslash segment List.mem_cons_self)
    · exact fun other hmem => hslash other (List.mem_cons_of_mem _ hmem)

theorem IsGrounded.isPlain_directory {referrer : String} (h : IsGrounded referrer) :
    IsPlain (directory referrer.toList) := by
  intro segment hmem
  rw [directory_eq] at hmem
  refine ⟨?_, h segment hmem⟩
  have hin : segment ∈ (segments referrer.toList).dropLast := (List.dropWhile_suffix _).mem hmem
  exact not_mem_of_mem_segments (List.dropLast_subset _ hin)

/-- **No dots are left in a resolved path**, whatever the specifier says. -/
theorem isCanonical_resolve {referrer : String} (h : IsGrounded referrer) (specifier : String) :
    IsCanonical (resolve referrer specifier) := by
  have hplain : IsPlain ((segments specifier.toList).foldl apply (directory referrer.toList)) :=
    h.isPlain_directory.foldl fun segment hmem => not_mem_of_mem_segments hmem
  intro segment hmem
  unfold resolve at hmem
  rw [String.toList_ofList] at hmem
  by_cases hnil : (segments specifier.toList).foldl apply (directory referrer.toList) = []
  · -- the root has one segment, which is empty
    rw [hnil] at hmem
    obtain rfl : segment = [] := by simpa [ofSegments, segments] using hmem
    decide
  · rw [segments_ofSegments hnil fun other hother => (hplain other hother).1] at hmem
    exact (hplain segment hmem).2

namespace IsCanonical

variable {path : String}

/-- A module with a canonical path is a referrer that resolves to canonical paths. -/
theorem isGrounded (h : IsCanonical path) : IsGrounded path := by
  intro segment hmem
  have hin : segment ∈ (segments path.toList).dropLast := (List.dropWhile_suffix _).mem hmem
  exact h segment (List.dropLast_subset _ hin)

/-- Segments that are no dots are added one by one. -/
theorem foldl_apply (place steps : List Segment) (h : ∀ segment ∈ steps, ¬ IsDots segment) :
    steps.foldl apply place = place ++ steps := by
  induction steps generalizing place with
  | nil => exact (List.append_nil place).symm
  | cons segment rest ih =>
    obtain ⟨hhere, hup⟩ := not_or.mp (h segment List.mem_cons_self)
    have hstep : apply place segment = place ++ [segment] := by
      unfold apply
      rw [if_neg hhere, if_neg hup]
    rw [List.foldl_cons, hstep, ih _ fun other hmem => h other (List.mem_cons_of_mem _ hmem),
      List.append_assoc]
    rfl

/-- **A canonical path names itself** from the default referrer. -/
theorem resolve_here (h : IsCanonical path) : resolve "." path = path := by
  have hroot : directory ".".toList = [] := by decide
  unfold resolve
  rw [hroot, foldl_apply [] _ h, List.nil_append, ofSegments_segments, String.ofList_toList]

end IsCanonical

/-! ## Files -/

/-- The file is named, below the root, by segments that are all proper. -/
def IsBelow (root file : String) : Prop :=
  ∃ name, IsCanonical name ∧ name.toList.head? ≠ some '/' ∧
    (file = root ++ name ∧ (root = "" ∨ root.endsWith "/") ∨ file = root ++ "/" ++ name)

/-- Without the slashes before it a path has no other segments than it had. -/
theorem mem_segments_dropWhile {chars : List Char} {segment : Segment}
    (h : segment ∈ segments (chars.dropWhile (· == '/'))) : segment ∈ segments chars := by
  induction chars with
  | nil => exact h
  | cons c rest ih =>
    by_cases hc : c = '/'
    · subst hc
      rw [List.dropWhile_cons_of_pos (by simp)] at h
      rw [segments, if_pos rfl]
      exact List.mem_cons_of_mem _ (ih h)
    · rwa [List.dropWhile_cons_of_neg (by simpa using hc)] at h

/-- **The file of a canonical path lies below the root.** -/
theorem IsCanonical.isBelow_filePath {path : String} (h : IsCanonical path) (root : String) :
    IsBelow root (Trace.filePath root path) := by
  refine ⟨String.ofList (path.toList.dropWhile (· == '/')), ?_, ?_, ?_⟩
  · intro segment hmem
    rw [String.toList_ofList] at hmem
    exact h segment (mem_segments_dropWhile hmem)
  · rw [String.toList_ofList]
    intro hslash
    have hnot := List.head?_dropWhile_not (· == '/') path.toList
    rw [hslash] at hnot
    exact absurd hnot (by decide)
  · unfold Trace.filePath
    split
    · next hroot =>
      subst hroot
      exact .inl ⟨(String.empty_append ..).symm, .inl rfl⟩
    · split
      · next hends => exact .inl ⟨rfl, .inr hends⟩
      · exact .inr rfl

end ScriptLink.Path
