import ScriptLink.Proofs.CanonicalPath

/-!
# Resolving in two steps

A specifier is resolved against the module that it stands in, and the path of that module has been
resolved before. Both can be done at once: what a module asks for is what its own specifier leads to
with the name of the module replaced. For this the directory of a resolved path has to be the place
that its specifier has led to, and it would not be if a `.` stood at the front of that place: the
directory of a referrer has no such segment, and no step puts one there.

* **`Path.IsPlace`** — the places that resolving goes through; a step keeps them
  (`IsPlace.apply`), and so do any number of steps (`IsPlace.foldl`).
* **`Path.directory_of_isPlace`** — the directory of a module at a place is the place.
* **`Path.resolve_resolve`** — the law.
-/

namespace ScriptLink.Path

variable {place : List Segment} {segment : Segment}

/-- The place can be written as a directory and read again: no segment has a slash, and the first
one is not `.`. -/
structure IsPlace (place : List Segment) : Prop where
  slash : ∀ segment ∈ place, '/' ∉ segment
  front : place.head? ≠ some here

theorem isPlace_directory (referrer : List Char) : IsPlace (directory referrer) where
  slash segment hmem := by
    have hdropped := List.dropLast_subset _ hmem
    exact not_mem_of_mem_segments ((List.dropWhile_suffix _).mem hdropped)
  front hfront := by
    have hnot := List.head?_dropWhile_not (· == here) (segments referrer).dropLast
    rw [← directory_eq, hfront] at hnot
    exact absurd hnot (by decide)

/-- Going up leaves the front as it is, or nothing. -/
theorem IsPlace.dropLast (h : IsPlace place) : IsPlace place.dropLast where
  slash segment hmem := h.slash segment (List.dropLast_subset _ hmem)
  front hfront := by
    cases place with
    | nil => exact absurd hfront (by simp)
    | cons first rest =>
      cases rest with
      | nil => exact absurd hfront (by simp)
      | cons second later => exact h.front hfront

theorem IsPlace.append (h : IsPlace place) (hslash : '/' ∉ segment) (hhere : segment ≠ here) :
    IsPlace (place ++ [segment]) where
  slash other hmem := by
    rcases List.mem_append.mp hmem with hold | hnew
    · exact h.slash other hold
    · exact List.mem_singleton.mp hnew ▸ hslash
  front hfront := by
    cases place with
    | nil => exact hhere (Option.some.inj hfront)
    | cons first rest => exact h.front hfront

/-- One step keeps it: a `.` is taken and never added. -/
theorem IsPlace.apply (h : IsPlace place) (hslash : '/' ∉ segment) :
    IsPlace (apply place segment) := by
  unfold Path.apply
  split
  · exact h
  · next hhere =>
    split
    · exact h.dropLast
    · exact h.append hslash hhere

theorem IsPlace.foldl (h : IsPlace place) {steps : List Segment}
    (hslash : ∀ segment ∈ steps, '/' ∉ segment) : IsPlace (steps.foldl Path.apply place) :=
  List.foldlRecOn steps Path.apply h fun _ hplace segment hmem =>
    hplace.apply (hslash segment hmem)

/-- **The directory of a module at a place** is the place. -/
theorem directory_of_isPlace (h : IsPlace place) {name : Segment} (hslash : '/' ∉ name)
    (hhere : name ≠ here) : directory (ofSegments (place ++ [name])) = place := by
  have hpath := h.append hslash hhere
  have hfront : (place ++ [name]).dropWhile (· == here) = place ++ [name] := by
    cases hparts : place ++ [name] with
    | nil => rfl
    | cons first rest =>
      refine List.dropWhile_cons_of_neg fun hfirst => hpath.front ?_
      rw [hparts, List.head?_cons, eq_of_beq hfirst]
  unfold directory
  rw [segments_ofSegments (by simp) hpath.slash, hfront, List.dropLast_concat]

/-! ## Specifiers with a directory -/

/-- The text is what stands before the name in a path: nothing, or something that ends with a
slash. -/
def IsDirectory (text : String) : Prop := text = "" ∨ ∃ parent, text = parent ++ "/"

/-- The steps of a specifier are those of its directory and those of what stands behind it. -/
theorem segments_of_isDirectory {folder : String} (h : IsDirectory folder) (chars : List Char) :
    segments (folder.toList ++ chars) = (segments folder.toList).dropLast ++ segments chars := by
  rcases h with rfl | ⟨parent, rfl⟩
  · rfl
  · have hslash : (parent ++ "/").toList = parent.toList ++ '/' :: [] := String.toList_append
    rw [hslash, List.append_assoc, List.cons_append, List.nil_append, segments_append,
      segments_append, show segments [] = [[]] from rfl, List.dropLast_concat]

/-- The place that a folder leads to in a module. -/
def folderPlace (referrer folder : String) : List Segment :=
  (segments folder.toList).dropLast.foldl apply (directory referrer.toList)

theorem isPlace_folderPlace (referrer folder : String) : IsPlace (folderPlace referrer folder) :=
  (isPlace_directory referrer.toList).foldl fun _ hmem =>
    not_mem_of_mem_segments (List.dropLast_subset _ hmem)

theorem resolve_folder (referrer target : String) {folder : String} (h : IsDirectory folder) :
    resolve referrer (folder ++ target) = String.ofList (ofSegments
      ((segments target.toList).foldl apply (folderPlace referrer folder))) := by
  unfold resolve folderPlace
  rw [String.toList_append, segments_of_isDirectory h, List.foldl_append]

/-- **Resolving in two steps** is resolving in one: what a module asks for is found from the
referrer by the folder of the module's specifier. The folder is empty or ends in a slash, and can
go past the root; the name behind it has no slash and is neither `.` nor `..`. Nothing is asked of
the referrer and of the target. -/
theorem resolve_resolve (referrer target : String) {folder name : String}
    (hfolder : IsDirectory folder) (hslash : '/' ∉ name.toList) (hhere : name ≠ ".")
    (hup : name ≠ "..") :
    resolve (resolve referrer (folder ++ name)) target = resolve referrer (folder ++ target) := by
  have hname : name.toList ≠ here ∧ name.toList ≠ up :=
    ⟨fun heq => hhere (String.toList_inj.mp heq), fun heq => hup (String.toList_inj.mp heq)⟩
  -- the module stands at the place of its folder
  have hmodule : resolve referrer (folder ++ name) =
      String.ofList (ofSegments (folderPlace referrer folder ++ [name.toList])) := by
    rw [resolve_folder referrer name hfolder, segments_of_not_mem hslash, List.foldl_cons,
      List.foldl_nil, apply, if_neg hname.1, if_neg hname.2]
  have hdirectory : directory (resolve referrer (folder ++ name)).toList =
      folderPlace referrer folder := by
    rw [hmodule, String.toList_ofList]
    exact directory_of_isPlace (isPlace_folderPlace referrer folder) hslash hname.1
  rw [resolve_folder referrer target hfolder]
  unfold resolve at hdirectory ⊢
  rw [hdirectory]

/-- Up past the root and through an empty segment, from a referrer with dots in its directory. -/
theorem resolve_resolve_past_root :
    IsDirectory "../../..//" ∧ '/' ∉ "m.js".toList ∧ "m.js" ≠ "." ∧ "m.js" ≠ ".." ∧
      resolve (resolve "./a/./b.js" "../../..//m.js") "./c/../../d.js" = "d.js" ∧
      resolve (resolve "./a/./b.js" ("../../..//" ++ "m.js")) "./c/../../d.js" =
        resolve "./a/./b.js" ("../../..//" ++ "./c/../../d.js") := by
  have hfolder : IsDirectory "../../..//" := .inr ⟨"../../../", by decide⟩
  refine ⟨hfolder, by decide, by decide, by decide, by decide, ?_⟩
  exact resolve_resolve "./a/./b.js" "./c/../../d.js" hfolder (by decide) (by decide) (by decide)

end ScriptLink.Path
