import ScriptLink.Loader

/-!
# Paths and their loaders

A record keeps the loader of the specifier that it was first requested by. A path may have many
specifiers, so one would think that the loader depends on who came first. It does not, as long as
only the built-in loaders are there: their suffixes have no slash, so the suffix of the specifier
is that of its last segment, which is also the last segment of the resolved path.

* **`segments_append`** — segments of a text with a slash in it.
* **`lastSegment_resolve`** — the last segment of a specifier, unless it is `.` or `..`, is that
  of the resolved path.
* **`Loader.ofPath_resolve`** — the built-in loader of a specifier can be read off the path.
-/

namespace ScriptLink

namespace Path

/-! ## Segments -/

theorem segments_of_not_mem {chars : List Char} (h : '/' ∉ chars) : segments chars = [chars] := by
  induction chars with
  | nil => rfl
  | cons c rest ih =>
    rw [List.mem_cons, not_or] at h
    rw [segments, if_neg (Ne.symm h.1), ih h.2]

/-- A slash separates the segments before it from those behind it. -/
theorem segments_append (first second : List Char) :
    segments (first ++ '/' :: second) = segments first ++ segments second := by
  induction first with
  | nil => simp [segments]
  | cons c rest ih =>
    rw [List.cons_append, segments, segments, ih]
    split
    · rfl
    · cases hrest : segments rest with
      | nil => exact absurd hrest (segments_ne_nil rest)
      | cons segment others => rfl

/-- The last segment of a path. -/
def lastSegment (chars : List Char) : Segment :=
  (segments chars).getLast (segments_ne_nil chars)

theorem lastSegment_of_not_mem {chars : List Char} (h : '/' ∉ chars) :
    lastSegment chars = chars := by
  simp only [lastSegment, segments_of_not_mem h, List.getLast_singleton]

theorem lastSegment_append (first : List Char) {second : List Char} (h : '/' ∉ second) :
    lastSegment (first ++ '/' :: second) = second := by
  simp only [lastSegment, segments_append, segments_of_not_mem h, List.getLast_concat]

/-- A path is its last segment, with a slash and something before it or not. -/
theorem lastSegment_cases (chars : List Char) : '/' ∉ lastSegment chars ∧
    (chars = lastSegment chars ∨ ∃ first, chars = first ++ '/' :: lastSegment chars) := by
  by_cases hslash : '/' ∈ chars
  · -- the last slash is the first one from behind
    obtain ⟨behind, before, heq, hbehind⟩ :=
      List.eq_append_cons_of_mem (List.mem_reverse.mpr hslash)
    have hchars : chars = before.reverse ++ '/' :: behind.reverse := by
      have := congrArg List.reverse heq
      simpa using this
    have hfree : '/' ∉ behind.reverse := fun hmem => hbehind (List.mem_reverse.mp hmem)
    have hlast : lastSegment chars = behind.reverse := by
      rw [hchars, lastSegment_append _ hfree]
    rw [hlast]
    exact ⟨hfree, Or.inr ⟨before.reverse, hchars⟩⟩
  · rw [lastSegment_of_not_mem hslash]
    exact ⟨hslash, Or.inl rfl⟩

theorem lastSegment_ofSegments (before : List Segment) {segment : Segment}
    (h : '/' ∉ segment) : lastSegment (ofSegments (before ++ [segment])) = segment := by
  -- some text stands before the last slash, if there is one
  have hshape : ofSegments (before ++ [segment]) = segment ∨
      ∃ first, ofSegments (before ++ [segment]) = first ++ '/' :: segment := by
    induction before with
    | nil => exact Or.inl rfl
    | cons first rest ih =>
      have hcons : ofSegments (first :: rest ++ [segment]) =
          first ++ '/' :: ofSegments (rest ++ [segment]) := by
        cases rest <;> rfl
      rw [hcons]
      rcases ih with heq | ⟨earlier, heq⟩
      · exact Or.inr ⟨first, by rw [heq]⟩
      · exact Or.inr ⟨first ++ '/' :: earlier, by rw [heq]; simp⟩
  rcases hshape with heq | ⟨first, heq⟩
  · rw [heq, lastSegment_of_not_mem h]
  · rw [heq, lastSegment_append first h]

/-- **The last segment of a target is that of the path that it names**, unless it is a step in
the directories. -/
theorem lastSegment_resolve {referrer target : String}
    (hhere : lastSegment target.toList ≠ here) (hup : lastSegment target.toList ≠ up) :
    lastSegment (resolve referrer target).toList = lastSegment target.toList := by
  have hsplit : segments target.toList =
      (segments target.toList).dropLast ++ [lastSegment target.toList] :=
    (List.dropLast_concat_getLast (segments_ne_nil _)).symm
  unfold resolve
  rw [String.toList_ofList, hsplit, List.foldl_append, List.foldl_cons, List.foldl_nil, apply,
    if_neg hhere, if_neg hup]
  exact lastSegment_ofSegments _ (lastSegment_cases _).1

/-- The name of a module: the last segment of its path. -/
def name (path : String) : String := String.ofList (lastSegment path.toList)

/-- A suffix without a slash is that of the name. -/
theorem suffix_name {path : String} (h : '/' ∉ (suffix path).toList) :
    suffix (name path) = suffix path := by
  obtain ⟨-, heq | ⟨first, heq⟩⟩ := lastSegment_cases path.toList
  · rw [name, ← heq, String.ofList_toList]
  · by_cases hall : ∀ c ∈ (lastSegment path.toList).reverse, (c != '.') = true
    · -- the suffix would go on to the slash
      refine absurd ?_ h
      rw [suffix, heq, String.toList_ofList, List.mem_reverse, List.reverse_append,
        List.reverse_cons, List.append_assoc, List.takeWhile_append_of_pos hall]
      simp
    · unfold suffix name
      rw [String.toList_ofList, heq, lastSegment_append _ (lastSegment_cases _).1,
        List.reverse_append, List.reverse_cons, List.append_assoc, List.takeWhile_append, if_neg]
      intro hlength
      have hself := (List.takeWhile_prefix _).eq_of_length hlength
      have htaken : ((lastSegment path.toList).reverse.takeWhile (· != '.')).all (· != '.') :=
        List.all_takeWhile
      rw [hself, List.all_eq_true] at htaken
      exact hall htaken

end Path

/-! ## The built-in loader of a path -/

namespace Loaders

/-- The suffixes of built-in loaders have no slash, and are no steps in the directories. -/
theorem builtIn_cases {specifier : String} {loader : Loader}
    (h : builtIn.find? specifier = some loader) :
    (Path.suffix specifier = "js" ∧ loader = .script) ∨
    (Path.suffix specifier = "css" ∧ loader = .stylesheet) ∨
    (Path.suffix specifier = "html" ∧ loader = .component) := by
  unfold find? builtIn at h
  rw [List.lookup_cons, List.lookup_cons, List.lookup_cons, List.lookup_nil] at h
  split at h
  · next hjs => exact Or.inl ⟨beq_iff_eq.mp hjs, (Option.some.inj h).symm⟩
  · split at h
    · next hcss => exact Or.inr (Or.inl ⟨beq_iff_eq.mp hcss, (Option.some.inj h).symm⟩)
    · split at h
      · next hhtml => exact Or.inr (Or.inr ⟨beq_iff_eq.mp hhtml, (Option.some.inj h).symm⟩)
      · exact absurd h (by simp)

end Loaders

/-- The built-in loader of the module at a path, whatever specifier it was requested by. -/
def Loader.ofPath (path : String) : Option Loader := Loaders.builtIn.find? (Path.name path)

/-- **The built-in loader of a specifier can be read off the path.** -/
theorem Loader.ofPath_resolve {referrer specifier : String} {loader : Loader}
    (h : Loaders.builtIn.find? specifier = some loader) :
    Loader.ofPath (Path.resolve referrer specifier) = some loader := by
  have hsuffix : '/' ∉ (Path.suffix specifier).toList ∧ Path.suffix specifier ≠ "" := by
    rcases Loaders.builtIn_cases h with ⟨heq, -⟩ | ⟨heq, -⟩ | ⟨heq, -⟩ <;> rw [heq] <;> decide
  have hname := Path.suffix_name hsuffix.1
  -- the suffixes of `.` and `..` are empty
  have hstep : Path.lastSegment specifier.toList ≠ Path.here ∧
      Path.lastSegment specifier.toList ≠ Path.up := by
    constructor <;>
    · intro heq
      refine hsuffix.2 ?_
      rw [← hname, Path.name, heq]
      decide
  unfold Loader.ofPath Path.name
  rw [Path.lastSegment_resolve hstep.1 hstep.2]
  show Loaders.builtIn.lookup (Path.suffix (Path.name specifier)) = some loader
  rw [hname]
  exact h

theorem Loader.ofPath_cases {path : String} {loader : Loader}
    (h : Loader.ofPath path = some loader) :
    loader = .script ∨ loader = .stylesheet ∨ loader = .component := by
  rcases Loaders.builtIn_cases h with ⟨-, heq⟩ | ⟨-, heq⟩ | ⟨-, heq⟩
  · exact Or.inl heq
  · exact Or.inr (Or.inl heq)
  · exact Or.inr (Or.inr heq)

end ScriptLink
