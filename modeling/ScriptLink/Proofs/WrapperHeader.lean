import ScriptLink.Proofs.CanonicalPath
import ScriptLink.Proofs.WrapperText

/-!
# The header of a wrapper

The text that the host runs begins with a comment that holds the path of the module. A path can have
any characters, and one thing in it ends the comment early: a directory whose name ends in a star,
since the star and the slash behind it are the closing mark of a comment. The rest of the path is then
read as program text.

* **`Comment.throughClose?_first`** — a comment goes on up to the first closing mark.
* **`Path.hasClose_iff`** — a path has the mark where a directory ends in a star.
  **`Path.mem_directories_resolve`** — the directories of a resolved path are those of the referrer
  and of the target.
* **`BeginsWithComment`** — a text that is scanned as one comment and what stands behind it.
* **`Wrapper.Headed`**, **`Wrapper.headed`** — the two ways in which a wrapper begins.
-/

namespace ScriptLink

/-! ## Closing marks -/

namespace Comment

variable {s : List Char}

/-- The text has the closing mark of a comment in it. -/
def HasClose (s : List Char) : Prop := ['*', '/'] <:+: s

theorem hasClose_cons {c : Char} :
    HasClose (c :: s) ↔ c = '*' ∧ s.head? = some '/' ∨ HasClose s := by
  unfold HasClose
  rw [List.infix_cons_iff, List.cons_prefix_cons]
  refine or_congr_left (and_congr eq_comm ?_)
  cases s with
  | nil => simp
  | cons d rest => simp [List.cons_prefix_cons, eq_comm]

/-- A mark is not begun by what stands before it, unless that ends in a star. -/
theorem hasClose_append_blank : HasClose (s ++ [' ', '*']) ↔ HasClose s := by
  induction s with
  | nil => simp [hasClose_cons]
  | cons c rest ih =>
    rw [List.cons_append, hasClose_cons, hasClose_cons, ih]
    cases rest <;> simp

/-- **A comment goes on up to the first closing mark.** -/
theorem throughClose?_first (h : ¬ HasClose (s ++ ['*'])) (behind : List Char) :
    throughClose? (s ++ '*' :: '/' :: behind) = some (s ++ ['*', '/']) := by
  induction s with
  | nil => rfl
  | cons c rest ih =>
    rw [List.cons_append, hasClose_cons, not_or] at h
    rw [List.cons_append, throughClose?, ih h.2]
    · rfl
    · -- a star and a slash would be an earlier mark
      rintro later rfl hslash
      apply h.1
      refine ⟨rfl, ?_⟩
      cases rest with
      | nil => exact absurd (List.cons.inj hslash).1 (by decide)
      | cons d more => exact congrArg some (List.cons.inj hslash).1

/-- A text with closing marks has a first one. -/
theorem exists_first_close (h : HasClose s) :
    ∃ before behind, s = before ++ '*' :: '/' :: behind ∧ ¬ HasClose (before ++ ['*']) := by
  induction s with
  | nil => exact absurd h (by simp [HasClose])
  | cons c rest ih =>
    by_cases hhere : c = '*' ∧ rest.head? = some '/'
    · obtain ⟨rfl, hslash⟩ := hhere
      obtain ⟨behind, rfl⟩ := List.head?_eq_some_iff.mp hslash
      exact ⟨[], behind, rfl, fun hclose => absurd hclose.length_le (by decide)⟩
    · obtain ⟨before, behind, rfl, hfirst⟩ := ih ((hasClose_cons.mp h).resolve_left hhere)
      refine ⟨c :: before, behind, rfl, fun hclose => ?_⟩
      rcases hasClose_cons.mp hclose with ⟨rfl, hslash⟩ | hlater
      · apply hhere
        refine ⟨rfl, ?_⟩
        cases before with
        | nil => exact absurd hslash (by simp)
        | cons d more => exact hslash
      · exact hfirst hlater

end Comment

/-! ## Directories -/

namespace Path

open Comment

/-- The directories that a path names: its segments with a slash behind them. -/
def directories (path : String) : List Segment := (segments path.toList).dropLast

/-- The name of the directory ends in a star. -/
def EndsInStar (directory : Segment) : Prop := directory.getLast? = some '*'

instance (directory : Segment) : Decidable (EndsInStar directory) :=
  inferInstanceAs (Decidable (_ = _))

/-- A segment that is not the last one stands before a slash. -/
theorem infix_ofSegments (before : List Segment) (segment : Segment) {later : List Segment}
    (hlater : later ≠ []) : segment ++ ['/'] <:+: ofSegments (before ++ segment :: later) := by
  induction before with
  | nil =>
    cases later with
    | nil => exact absurd rfl hlater
    | cons next more =>
      refine List.IsPrefix.isInfix ⟨ofSegments (next :: more), ?_⟩
      simp [ofSegments]
  | cons first rest ih =>
    have hcons : ofSegments (first :: rest ++ segment :: later) =
        first ++ '/' :: ofSegments (rest ++ segment :: later) := by
      cases rest <;> rfl
    rw [hcons]
    exact ih.trans ((List.suffix_cons '/' _).trans (List.suffix_append first _)).isInfix

/-- The last segment of a text that ends in a star does so too. -/
theorem endsInStar_lastSegment (before : List Char) :
    EndsInStar (lastSegment (before ++ ['*'])) := by
  have hlast : (before ++ ['*']).getLast? = some '*' := List.getLast?_concat
  unfold EndsInStar
  obtain ⟨-, heq | ⟨first, heq⟩⟩ := lastSegment_cases (before ++ ['*'])
  · rw [← heq]
    exact hlast
  · rw [heq, List.getLast?_append, List.getLast?_cons] at hlast
    cases hsegment : (lastSegment (before ++ ['*'])).getLast? with
    | none => exact absurd hlast (by simp [hsegment])
    | some c => simpa [hsegment] using hlast

/-- **A path has the closing mark of a comment** where one of its directories ends in a star. -/
theorem hasClose_iff {path : String} :
    HasClose path.toList ↔ ∃ directory ∈ directories path, EndsInStar directory := by
  constructor
  · -- the star in front of the slash is the last character of a segment
    rintro ⟨before, behind, heq⟩
    have hsplit : path.toList = (before ++ ['*']) ++ '/' :: behind := by
      rw [← heq]
      simp
    refine ⟨lastSegment (before ++ ['*']), ?_, endsInStar_lastSegment before⟩
    unfold directories
    rw [hsplit, segments_append, List.dropLast_append_of_ne_nil (segments_ne_nil behind)]
    exact List.mem_append_left _ (List.getLast_mem _)
  · rintro ⟨directory, hmem, hstar⟩
    obtain ⟨name, rfl⟩ := List.getLast?_eq_some_iff.mp hstar
    obtain ⟨before, later, hsplit⟩ := List.append_of_mem hmem
    have hsegments : segments path.toList = before ++ (name ++ ['*']) ::
        (later ++ [(segments path.toList).getLast (segments_ne_nil _)]) := by
      rw [← List.cons_append, ← List.append_assoc, ← hsplit]
      exact (List.dropLast_concat_getLast (segments_ne_nil _)).symm
    have hin := infix_ofSegments before (name ++ ['*'])
      (List.concat_ne_nil ((segments path.toList).getLast (segments_ne_nil _)) later)
    rw [← hsegments, ofSegments_segments, List.append_assoc] at hin
    exact (List.suffix_append name _).isInfix.trans hin

/-- Going on from a place, one names what was named already or is in the steps. -/
theorem mem_of_mem_foldl {place steps : List Segment} {segment : Segment}
    (h : segment ∈ steps.foldl apply place) : segment ∈ place ∨ segment ∈ steps := by
  induction steps generalizing place with
  | nil => exact .inl h
  | cons step rest ih =>
    rcases ih h with hplace | hrest
    · unfold apply at hplace
      split at hplace
      · exact .inl hplace
      · split at hplace
        · exact .inl (List.dropLast_subset _ hplace)
        · rcases List.mem_append.mp hplace with hold | hnew
          · exact .inl hold
          · exact .inr (List.mem_singleton.mp hnew ▸ List.mem_cons_self)
    · exact .inr (List.mem_cons_of_mem _ hrest)

/-- The last step adds no directory. -/
theorem mem_of_mem_dropLast_apply {place : List Segment} {step segment : Segment}
    (h : segment ∈ (apply place step).dropLast) : segment ∈ place := by
  unfold apply at h
  split at h
  · exact List.dropLast_subset _ h
  · split at h
    · exact List.dropLast_subset _ (List.dropLast_subset _ h)
    · rwa [List.dropLast_concat] at h

theorem mem_directories_of_mem_directory {referrer : String} {directory : Segment}
    (h : directory ∈ Path.directory referrer.toList) : directory ∈ directories referrer := by
  rw [directory_eq] at h
  exact (List.dropWhile_suffix _).mem h

/-- **The directories of a resolved path** are directories of the referrer or of the target. -/
theorem mem_directories_resolve {referrer target : String} {directory : Segment}
    (h : directory ∈ directories (resolve referrer target)) :
    directory ∈ directories referrer ∨ directory ∈ directories target := by
  let parts := (segments target.toList).foldl apply (Path.directory referrer.toList)
  have hparts : directory ∈ (segments (ofSegments parts)).dropLast := by
    unfold directories resolve at h
    rwa [String.toList_ofList] at h
  by_cases hnil : parts = []
  · rw [hnil] at hparts
    exact absurd hparts (by simp [ofSegments, segments])
  · have hslash : ∀ segment ∈ parts, '/' ∉ segment := by
      intro segment hmem
      rcases mem_of_mem_foldl hmem with hplace | hstep
      · have hin := mem_directories_of_mem_directory hplace
        exact not_mem_of_mem_segments (List.dropLast_subset _ hin)
      · exact not_mem_of_mem_segments hstep
    -- the last segment of the target names the file, so it adds no directory
    rw [segments_ofSegments hnil hslash] at hparts
    have hsteps : parts = apply ((directories target).foldl apply (Path.directory referrer.toList))
        (lastSegment target.toList) := by
      show (segments target.toList).foldl apply _ = _
      conv_lhs => rw [← List.dropLast_concat_getLast (segments_ne_nil target.toList)]
      rw [List.foldl_append]
      rfl
    rw [hsteps] at hparts
    rcases mem_of_mem_foldl (mem_of_mem_dropLast_apply hparts) with hplace | hstep
    · exact .inl (mem_directories_of_mem_directory hplace)
    · exact .inr hstep

end Path

/-! ## The first token of a wrapper -/

/-- The script begins with a documentation comment, and the scanner goes on behind it as at the start
of a script. -/
structure BeginsWithComment (source : String) (comment behind : List Char) : Prop where
  text_eq : source.toList = comment ++ behind
  pieces_eq : pieces source =
    (Context.start.scan (byteLength comment) behind).map (⟨.docComment, comment⟩ :: ·)

/-- A comment of two stars and a blank is a documentation comment, up to its first closing mark. -/
theorem beginsWithComment {source : String} {body behind : List Char}
    (hsource : source.toList = "/** ".toList ++ (body ++ '*' :: '/' :: behind))
    (hbody : ¬ Comment.HasClose (body ++ ['*'])) :
    BeginsWithComment source ("/** ".toList ++ (body ++ ['*', '/'])) behind := by
  let tail := '*' :: '*' :: ' ' :: (body ++ ['*', '/'])
  have htail : tail ++ behind = '*' :: '*' :: ' ' :: (body ++ '*' :: '/' :: behind) := by
    simp [tail]
  -- the blank keeps the two stars at the front from being part of a mark
  have hclose : Comment.throughClose? (' ' :: body ++ '*' :: '/' :: behind) =
      some (' ' :: body ++ ['*', '/']) := by
    apply Comment.throughClose?_first
    rw [List.cons_append, Comment.hasClose_cons]
    exact not_or.mpr ⟨fun hstar => absurd hstar.1 (by decide), hbody⟩
  have hblock : Comment.block? ('*' :: ' ' :: (body ++ '*' :: '/' :: behind)) =
      some ('*' :: ' ' :: (body ++ ['*', '/'])) := by
    show (Comment.throughClose? (' ' :: body ++ '*' :: '/' :: behind)).map _ = _
    rw [hclose]
    rfl
  have hstep : Context.start.step 0 '/' (tail ++ behind) = .ok ⟨.docComment, tail, .start⟩ := by
    show Context.start.codeStep 0 '/' (tail ++ behind) = _
    rw [Context.codeStep_eq, show Lead.of '/' = .slash by decide, htail]
    show Context.start.slashStep 0 _ = _
    rw [Context.slashStep_star, hblock]
    rfl
  have hchars : source.toList = '/' :: (tail ++ behind) := by
    rw [hsource, htail]
    rfl
  refine ⟨hchars, ?_⟩
  unfold pieces
  rw [hchars, Context.scan_of_step hstep, Nat.zero_add]
  rfl

namespace Wrapper

/-- How the text of a wrapper begins. -/
inductive Headed (wrapper : Wrapper) : Prop where
  /-- the first token is the header without its line break -/
  | whole (hpath : ∀ directory ∈ Path.directories wrapper.path, ¬ Path.EndsInStar directory)
      (hread : BeginsWithComment wrapper.render ("/** @file " ++ wrapper.path ++ " */").toList
        ('\n' :: wrapper.code.toList))
  /-- the first token ends inside the path, and what is left of it is read as program text -/
  | cut {before behind : List Char} (hpath : wrapper.path.toList = before ++ '*' :: '/' :: behind)
      (hread : BeginsWithComment wrapper.render ("/** @file ".toList ++ before ++ ['*', '/'])
        (behind ++ " */\n".toList ++ wrapper.code.toList))

/-- **How every wrapper begins**, whatever its path is. -/
theorem headed (wrapper : Wrapper) : wrapper.Headed := by
  have hrender : wrapper.render.toList =
      "/** @file ".toList ++ wrapper.path.toList ++ " */\n".toList ++ wrapper.code.toList := by
    rw [render_eq, header, String.toList_append, String.toList_append, String.toList_append]
  by_cases hclose : Comment.HasClose wrapper.path.toList
  · obtain ⟨before, behind, hpath, hfirst⟩ := Comment.exists_first_close hclose
    refine .cut hpath ?_
    have hread : BeginsWithComment wrapper.render
        ("/** ".toList ++ ("@file ".toList ++ before ++ ['*', '/']))
        (behind ++ " */\n".toList ++ wrapper.code.toList) := by
      apply beginsWithComment
      · rw [hrender, hpath]
        simp
      · simpa [Comment.hasClose_cons] using hfirst
    simpa using hread
  · refine .whole (fun directory hmem hstar => hclose (Path.hasClose_iff.mpr ⟨_, hmem, hstar⟩)) ?_
    have hread : BeginsWithComment wrapper.render
        ("/** ".toList ++ ("@file ".toList ++ wrapper.path.toList ++ [' '] ++ ['*', '/']))
        ('\n' :: wrapper.code.toList) := by
      apply beginsWithComment
      · rw [hrender]
        simp
      · simpa [Comment.hasClose_cons, Comment.hasClose_append_blank] using hclose
    have hcomment : ("/** @file " ++ wrapper.path ++ " */").toList =
        "/** ".toList ++ ("@file ".toList ++ wrapper.path.toList ++ [' '] ++ ['*', '/']) := by
      simp
    rw [hcomment]
    exact hread

/-- A wrapper with a harmless path begins with its whole header. -/
theorem Headed.comment_eq {wrapper : Wrapper} (h : wrapper.Headed)
    (hpath : ∀ directory ∈ Path.directories wrapper.path, ¬ Path.EndsInStar directory) :
    BeginsWithComment wrapper.render ("/** @file " ++ wrapper.path ++ " */").toList
      ('\n' :: wrapper.code.toList) := by
  cases h with
  | whole _ hread => exact hread
  | @cut before behind hsplit _ =>
    -- the mark in the path would end a directory
    have hclose : Comment.HasClose wrapper.path.toList := ⟨before, behind, by simp [hsplit]⟩
    obtain ⟨directory, hmem, hstar⟩ := Path.hasClose_iff.mp hclose
    exact absurd hstar (hpath directory hmem)

end Wrapper

end ScriptLink
