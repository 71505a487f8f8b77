import ScriptLink.Proofs.Markup.FirstTemplate

/-!
# Components put together and taken apart

A component is taken apart by four searches that know nothing of each other. This module puts a
markup text together from blocks and texts, and shows that the searches find just the blocks: none
begins in a text or in a block of another kind, and none reaches out of its own block.

* **`marks`** — how the tags begin that are searched for. **`PlainText`** — text without any.
* **`Inner`**, **`Block`**, **`Document`** — texts with nested templates, blocks, and blocks with
  texts around them; `render` writes them down, and **`Document.component`** is what they hold.
* **`Seeks`** — a pattern that is found at certain marks only. What it passes over is shown once for
  all patterns: `Seeks.shows_plain`, `Seeks.shows_mark`, and from these `Seeks.shows_inner` and
  `Seeks.shows_block`.
* **`ofMarkup_render`** — the law.
-/

namespace ScriptLink.Markup

/-! ## Marks -/

/-- How the tags begin that a component is taken apart by. -/
def marks : List (List Char) :=
  ["<script".toList, "</script".toList, "<style".toList, "</style".toList, "<template".toList,
    "</template".toList, "<amd-dependency".toList]

/-- Text in which no mark is written, in any spelling. -/
structure PlainText where
  chars : List Char
  plain : ∀ mark ∈ marks, ¬ mark <:+: chars.map foldCase

/-- A text that begins with a character that no mark goes on with, or is empty. -/
def Bounded (next : List Char) : Prop := ∀ c ∈ next.head?, c = '<' ∨ c = '"'

section Marks

variable {mark other later next rest : List Char} {c : Char}

theorem marks_begin : ∀ mark ∈ marks, ∃ name, mark = '<' :: name ∧ '<' ∉ name ∧ '"' ∉ name := by
  have hall : ∀ mark ∈ marks, mark.head? = some '<' ∧ '<' ∉ mark.tail ∧ '"' ∉ mark.tail := by
    decide
  intro mark hmark
  obtain ⟨hhead, hname⟩ := hall mark hmark
  cases mark with
  | nil => exact absurd hhead (by simp)
  | cons c name =>
    obtain rfl := Option.some.inj hhead
    exact ⟨name, rfl, hname⟩

theorem map_foldCase_mark : ∀ mark ∈ marks, mark.map foldCase = mark := by decide

/-- No mark begins another one. -/
theorem marks_apart : ∀ mark ∈ marks, ∀ other ∈ marks, mark <+: other → mark = other := by decide

/-- Only a `<` begins a mark. -/
theorem word?_of_ne (hmark : mark ∈ marks) (hc : c ≠ '<') :
    word? foldCase mark (c :: rest) = none := by
  obtain ⟨name, rfl, -⟩ := marks_begin mark hmark
  rw [word?, if_neg fun hfold => hc (eq_of_foldCase hfold (by decide))]

/-- Where a mark stands there is no other. -/
theorem word?_of_other (hmark : mark ∈ marks) (hother : other ∈ marks) (hne : other ≠ mark) :
    word? foldCase mark (other ++ rest) = none := by
  refine Option.eq_none_iff_forall_ne_some.mpr fun behind hword => ?_
  obtain ⟨part, htext, hpart⟩ := word?_eq_some_iff.mp hword
  rcases List.append_eq_append_iff.mp htext with ⟨more, rfl, -⟩ | ⟨more, rfl, -⟩
  · refine hne (marks_apart other hother mark hmark ?_)
    rw [← hpart, List.map_append, map_foldCase_mark other hother]
    exact List.prefix_append _ _
  · refine hne (marks_apart mark hmark _ hother ?_).symm
    rw [← map_foldCase_mark _ hother, List.map_append, hpart]
    exact List.prefix_append _ _

/-- In a plain text there is no mark, and none reaches out of it. -/
theorem PlainText.word?_eq_none (text : PlainText) (hmark : mark ∈ marks) (hne : later ≠ [])
    (hlater : later <:+ text.chars) (hnext : Bounded next) :
    word? foldCase mark (later ++ next) = none := by
  refine Option.eq_none_iff_forall_ne_some.mpr fun behind hword => ?_
  obtain ⟨part, htext, hpart⟩ := word?_eq_some_iff.mp hword
  rcases List.append_eq_append_iff.mp htext with ⟨more, rfl, rfl⟩ | ⟨more, rfl, -⟩
  · cases more with
    | nil =>
      rw [List.append_nil] at hpart
      exact text.plain mark hmark (hpart ▸ hlater.isInfix.map foldCase)
    | cons c more =>
      -- the mark would go on with what bounds the text
      obtain ⟨name, rfl, hopen, hquote⟩ := marks_begin mark hmark
      obtain ⟨first, later, rfl⟩ := List.exists_cons_of_ne_nil hne
      have hmem : foldCase c ∈ name := by
        have htail := (List.cons.inj hpart).2
        rw [← htail]
        exact List.mem_map_of_mem (List.mem_append_right later List.mem_cons_self)
      rcases hnext c rfl with rfl | rfl
      · exact hopen hmem
      · exact hquote hmem
  · refine text.plain mark hmark (hpart ▸ ?_)
    exact ((List.prefix_append _ _).isInfix.trans hlater.isInfix).map foldCase

end Marks

/-! ## Patterns that seek marks -/

/-- A pattern that is found only where one of the words is. -/
def Seeks {α : Type} (words : List (List Char)) (pattern : Pattern α) : Prop :=
  ∀ text, (∀ word ∈ words, word? foldCase word text = none) → pattern text = none

section Seeks

variable {α : Type} {words : List (List Char)} {pattern : Pattern α} {mark part next : List Char}

/-- Behind a `<` a name is looked for like the two in one. -/
theorem word?_open (name behind : List Char) :
    word? foldCase ('<' :: name) ('<' :: behind) = word? foldCase name behind := by
  rw [word?, if_pos (by decide)]

theorem seeks_element (name : String) : Seeks ['<' :: name.toList] (element? name) := by
  intro text hnone
  refine Option.eq_none_iff_forall_ne_some.mpr fun found hfound => ?_
  obtain ⟨behind, hopen, hrest⟩ := Option.bind_eq_some_iff.mp hfound
  obtain ⟨_, htag, -⟩ := Option.bind_eq_some_iff.mp hrest
  obtain ⟨_, hname, -⟩ := Option.bind_eq_some_iff.mp htag
  have hword := hnone _ List.mem_cons_self
  rw [word?_mark_eq_some_iff.mp hopen, word?_open, hname] at hword
  exact absurd hword (by simp)

theorem seeks_tag (name : String) :
    Seeks ['<' :: name.toList, '<' :: '/' :: name.toList] (tag? name) := by
  intro text hnone
  refine Option.eq_none_iff_forall_ne_some.mpr fun found hfound => ?_
  obtain ⟨behind, hopen, hrest⟩ := Option.bind_eq_some_iff.mp hfound
  rw [word?_mark_eq_some_iff.mp hopen] at hnone
  -- the name stands behind a slash, or at once
  split at hrest
  · next later hslash =>
    obtain ⟨_, htag, -⟩ := Option.map_eq_some_iff.mp hrest
    obtain ⟨_, hname, -⟩ := Option.bind_eq_some_iff.mp htag
    have hword := hnone ('<' :: '/' :: name.toList) (by simp)
    rw [word?_mark_eq_some_iff.mp hslash, word?_open, word?, if_pos (by decide), hname] at hword
    exact absurd hword (by simp)
  · obtain ⟨_, htag, -⟩ := Option.map_eq_some_iff.mp hrest
    obtain ⟨_, hname, -⟩ := Option.bind_eq_some_iff.mp htag
    have hword := hnone ('<' :: name.toList) (by simp)
    rw [word?_open, hname] at hword
    exact absurd hword (by simp)

theorem seeks_marker : Seeks ["<amd-dependency".toList] (Marker.tag? foldCase) := by
  intro text hnone
  refine Option.eq_none_iff_forall_ne_some.mpr fun found hfound => ?_
  obtain ⟨_, hname, -⟩ := Option.bind_eq_some_iff.mp hfound
  exact absurd (hname.symm.trans (hnone _ List.mem_cons_self)) (by simp)

variable (hseeks : Seeks words pattern) (hwords : words ⊆ marks)

include hseeks hwords

/-- Nothing is found in a plain text. -/
theorem Seeks.shows_plain (text : PlainText) (hnext : Bounded next) :
    Shows pattern text.chars next [] :=
  shows_nothing fun _ hne hlater => hseeks _ fun _ hword =>
    text.word?_eq_none (hwords hword) hne hlater hnext

/-- Nothing is found where no tag begins. -/
theorem Seeks.shows_flat (hpart : '<' ∉ part) : Shows pattern part next [] := by
  refine shows_nothing fun later hne hlater => hseeks _ fun word hword => ?_
  obtain ⟨c, later, rfl⟩ := List.exists_cons_of_ne_nil hne
  refine word?_of_ne (hwords hword) ?_
  rintro rfl
  exact hpart (hlater.subset List.mem_cons_self)

/-- Nothing is found in a tag that begins with another mark. -/
theorem Seeks.shows_mark (hmark : mark ∈ marks) (hother : mark ∉ words) (hpart : '<' ∉ part) :
    Shows pattern (mark ++ part) next [] := by
  have hnone : pattern (mark ++ part ++ next) = none := by
    refine hseeks _ fun word hword => ?_
    rw [List.append_assoc]
    exact word?_of_other (hwords hword) hmark fun heq => hother (heq ▸ hword)
  obtain ⟨name, rfl, hname, -⟩ := marks_begin mark hmark
  exact .pass hnone (hseeks.shows_flat hwords fun hmem =>
    (List.mem_append.mp hmem).elim hname hpart)

end Seeks

/-! ## Documents -/

/-- What stands in an opening tag behind its name. -/
structure Attributes where
  chars : List Char
  apart : ∀ c ∈ chars.head?, Unicode.isBlank c = true
  clean : '<' ∉ chars ∧ '>' ∉ chars

structure MarkerPath extends PlainText where
  ne_nil : chars ≠ []
  unquoted : ∀ c ∈ chars, isQuote c = false

structure MarkerName where
  chars : List Char
  ne_nil : chars ≠ []
  clean : ∀ c ∈ chars, Marker.isNameChar c = true

def opening (name : String) (attributes : Attributes) : List Char :=
  '<' :: name.toList ++ (attributes.chars ++ ['>'])

def closing (name : String) : List Char := '<' :: '/' :: name.toList ++ ['>']

/-- The text of a template, in which other templates may be nested. -/
inductive Inner where
  | text (plain : PlainText)
  | nest (before : PlainText) (attributes : Attributes) (inner after : Inner)

def Inner.render : Inner → List Char
  | text plain => plain.chars
  | nest before attributes inner after =>
    before.chars ++ (opening "template" attributes ++
      (inner.render ++ (closing "template" ++ after.render)))

/-- One part of a component. -/
inductive Block where
  | script (attributes : Attributes) (text : PlainText)
  | style (attributes : Attributes) (text : PlainText)
  | template (attributes : Attributes) (inner : Inner)
  | marker (path : MarkerPath) (name : Option MarkerName)

/-- An attribute with its value in double quotes. -/
def quoted (name : String) (value : List Char) : List Char :=
  ' ' :: name.toList ++ '=' :: '"' :: (value ++ ['"'])

namespace Block

def nameAttribute : Option MarkerName → List Char
  | none => []
  | some name => quoted "name" name.chars

def render : Block → List Char
  | script attributes text => opening "script" attributes ++ (text.chars ++ closing "script")
  | style attributes text => opening "style" attributes ++ (text.chars ++ closing "style")
  | template attributes inner =>
    opening "template" attributes ++ (inner.render ++ closing "template")
  | marker path name =>
    "<amd-dependency".toList ++ (quoted "path" path.chars ++ (nameAttribute name ++ ['/', '>']))

/-- The marks that are written for a block. -/
def marks : Block → List (List Char)
  | script _ _ => ["<script".toList, "</script".toList]
  | style _ _ => ["<style".toList, "</style".toList]
  | template _ _ => ["<template".toList, "</template".toList]
  | marker _ _ => ["<amd-dependency".toList]

def script? : Block → Option (List Char)
  | script _ text => some text.chars
  | _ => none

def style? : Block → Option (List Char)
  | style _ text => some text.chars
  | _ => none

def template? : Block → Option (List Char)
  | template _ inner => some inner.render
  | _ => none

def marker? : Block → Option Marker
  | marker path name =>
    some ⟨String.ofList path.chars, name.map fun name => String.ofList name.chars⟩
  | _ => none

end Block

/-- Blocks with a text behind each. -/
def renderBlocks : List (Block × PlainText) → List Char
  | [] => []
  | (block, text) :: rest => block.render ++ (text.chars ++ renderBlocks rest)

/-- Blocks with texts around and between them. -/
structure Document where
  lead : PlainText
  blocks : List (Block × PlainText)

def Document.render (document : Document) : List Char :=
  document.lead.chars ++ renderBlocks document.blocks

/-- What the blocks of a document hold: the first script, the first template, all styles and all
markers. -/
def Document.component (document : Document) : Component where
  script := ((document.blocks.filterMap (·.1.script?)).map String.ofList).headD ""
  template := (document.blocks.filterMap (·.1.template?)).head?.map String.ofList
  styles := (document.blocks.filterMap (·.1.style?)).map String.ofList
  markers := document.blocks.filterMap (·.1.marker?)

/-! ## What is passed over -/

section Passing

variable {α : Type} {words : List (List Char)} {pattern : Pattern α} {name : String}
  {next : List Char}

theorem bounded_of_head {c : Char} (hhead : next.head? = some c) (hc : c = '<' ∨ c = '"') :
    Bounded next :=
  fun _ hother => Option.some.inj (hhead.symm.trans hother) ▸ hc

/-- A `<` is no character of a name. -/
theorem Block.not_mem_nameAttribute (name : Option MarkerName) : '<' ∉ nameAttribute name := by
  cases name with
  | none => exact List.not_mem_nil
  | some name =>
    have hclean : '<' ∉ name.chars := fun hmem => absurd (name.clean '<' hmem) (by decide)
    show '<' ∉ quoted "name" name.chars
    simp [quoted, hclean]

theorem Block.head?_render (block : Block) (next : List Char) :
    (block.render ++ next).head? = some '<' := by
  cases block <;> rfl

theorem bounded_renderBlocks (blocks : List (Block × PlainText)) :
    Bounded (renderBlocks blocks) := by
  cases blocks with
  | nil => exact fun c hc => absurd hc (by simp [renderBlocks])
  | cons first rest => exact bounded_of_head (first.1.head?_render _) (Or.inl rfl)

variable (hseeks : Seeks words pattern) (hwords : words ⊆ marks)

include hseeks hwords

theorem Seeks.shows_opening (name : String) {attributes : Attributes}
    (hmark : '<' :: name.toList ∈ marks)
    (hother : '<' :: name.toList ∉ words) : Shows pattern (opening name attributes) next [] := by
  refine hseeks.shows_mark hwords hmark hother fun hmem => ?_
  rcases List.mem_append.mp hmem with hmem | hmem
  · exact attributes.clean.1 hmem
  · exact absurd hmem (by decide)

theorem Seeks.shows_closing (name : String) (hmark : '<' :: '/' :: name.toList ∈ marks)
    (hother : '<' :: '/' :: name.toList ∉ words) : Shows pattern (closing name) next [] :=
  hseeks.shows_mark hwords hmark hother (by decide)

/-- Nothing but template tags is found in a template. -/
theorem Seeks.shows_inner (hopening : "<template".toList ∉ words)
    (hclosing : "</template".toList ∉ words) (inner : Inner) (hnext : Bounded next) :
    Shows pattern inner.render next [] := by
  induction inner generalizing next with
  | text plain => exact hseeks.shows_plain hwords plain hnext
  | nest before attributes inner after ihinner ihafter =>
    have hbehind : Shows pattern (closing "template" ++ after.render) next [] :=
      (hseeks.shows_closing hwords "template" (by decide) hclosing).append (ihafter hnext)
    have hinside : Shows pattern (inner.render ++ (closing "template" ++ after.render)) next [] :=
      (ihinner (bounded_of_head rfl (Or.inl rfl))).append hbehind
    have hnested : Shows pattern (opening "template" attributes ++
        (inner.render ++ (closing "template" ++ after.render))) next [] :=
      (hseeks.shows_opening hwords "template" (by decide) hopening).append hinside
    exact (hseeks.shows_plain hwords before (bounded_of_head rfl (Or.inl rfl))).append hnested

/-- Nothing is found in an element with another name. -/
theorem Seeks.shows_element (name : String) {attributes : Attributes} (text : PlainText)
    (hopening : '<' :: name.toList ∈ marks) (hclosing : '<' :: '/' :: name.toList ∈ marks)
    (hother : ∀ mark ∈ ['<' :: name.toList, '<' :: '/' :: name.toList], mark ∉ words) :
    Shows pattern (opening name attributes ++ (text.chars ++ closing name)) next [] := by
  have hbehind : Shows pattern (text.chars ++ closing name) next [] :=
    (hseeks.shows_plain hwords text (bounded_of_head rfl (Or.inl rfl))).append
      (hseeks.shows_closing hwords name hclosing (hother _ (by simp)))
  exact (hseeks.shows_opening hwords name hopening (hother _ (by simp))).append hbehind

/-- Nothing is found in a marker by a pattern that seeks other marks. -/
theorem Seeks.shows_marker {path : MarkerPath} {name : Option MarkerName}
    (hother : "<amd-dependency".toList ∉ words) :
    Shows pattern (Block.marker path name).render next [] := by
  have hflat : '<' ∉ '"' :: (Block.nameAttribute name ++ ['/', '>']) := by
    simp [Block.not_mem_nameAttribute name]
  have hbehind : Shows pattern
      (path.chars ++ ('"' :: (Block.nameAttribute name ++ ['/', '>']))) next [] :=
    (hseeks.shows_plain hwords path.toPlainText (bounded_of_head rfl (Or.inr rfl))).append
      (hseeks.shows_flat hwords hflat)
  have hhead : Shows pattern ("<amd-dependency".toList ++ (' ' :: "path".toList ++ ['=', '"']))
      (path.chars ++ ('"' :: (Block.nameAttribute name ++ ['/', '>'])) ++ next) [] :=
    hseeks.shows_mark hwords (by decide) hother (by decide)
  have hrender : (Block.marker path name).render =
      "<amd-dependency".toList ++ (' ' :: "path".toList ++ ['=', '"']) ++
        (path.chars ++ ('"' :: (Block.nameAttribute name ++ ['/', '>']))) := by
    show "<amd-dependency".toList ++
      (quoted "path" path.chars ++ (Block.nameAttribute name ++ ['/', '>'])) = _
    simp [quoted]
  exact hrender ▸ hhead.append hbehind

/-- **A pattern passes over the blocks in which its marks are not written.** -/
theorem Seeks.shows_block (block : Block)
    (hapart : block.marks.all (fun mark => decide (mark ∉ words)) = true) :
    Shows pattern block.render next [] := by
  have hother : ∀ mark ∈ block.marks, mark ∉ words := fun mark hmem =>
    of_decide_eq_true (List.all_eq_true.mp hapart mark hmem)
  cases block with
  | script attributes text =>
    exact hseeks.shows_element hwords "script" text (by decide) (by decide) hother
  | style attributes text =>
    exact hseeks.shows_element hwords "style" text (by decide) (by decide) hother
  | template attributes inner =>
    have hopening := hother "<template".toList List.mem_cons_self
    have hclosing := hother "</template".toList (List.mem_cons_of_mem _ List.mem_cons_self)
    have hbehind : Shows pattern (inner.render ++ closing "template") next [] :=
      (hseeks.shows_inner hwords hopening hclosing inner (bounded_of_head rfl (Or.inl rfl))).append
        (hseeks.shows_closing hwords "template" (by decide) hclosing)
    exact (hseeks.shows_opening hwords "template" (by decide) hopening).append hbehind
  | marker path name => exact hseeks.shows_marker hwords (hother _ List.mem_cons_self)

end Passing

/-! ## What is found -/

section Finding

variable {α : Type} {words : List (List Char)} {pattern : Pattern α} {name : String}
  {next : List Char} {value? : Block → Option α}

theorem isTag_opening (hname : name.toList.map foldCase = name.toList) (attributes : Attributes) :
    IsTag name false (opening name attributes) := by
  have hends : wordEnds (attributes.chars ++ ['>']) = true := by
    cases hchars : attributes.chars with
    | nil => decide
    | cons c rest =>
      have hblank := attributes.apart c (by rw [hchars]; rfl)
      simp [wordEnds, Unicode.isWord_of_isBlank hblank]
  have htag := @IsTag.intro name false name.toList attributes.chars hname hends attributes.clean.2
  simpa [opening] using htag

theorem isTag_closing (hname : name.toList.map foldCase = name.toList) :
    IsTag name true (closing name) := by
  have htag := @IsTag.intro name true name.toList [] hname (by decide) List.not_mem_nil
  simpa [closing] using htag

/-- A quoted attribute is read back. -/
theorem attribute?_quoted {fold : Char → Char} {isValue : Char → Bool} {value : List Char}
    (hname : name.toList.map fold = name.toList)
    (hstart : ∀ later, blanks (name.toList ++ later) = name.toList ++ later)
    (hvalue : ∀ c ∈ value, isValue c = true) (hquote : isValue '"' = false) (hne : value ≠ []) :
    attribute? fold name isValue (quoted name value ++ next) = some (value, next) := by
  have hblank : blanks? (' ' :: (name.toList ++ '=' :: '"' :: (value ++ '"' :: next))) =
      some (name.toList ++ '=' :: '"' :: (value ++ '"' :: next)) :=
    congrArg some (hstart _)
  have htake : (value ++ '"' :: next).takeWhile isValue = value := by
    rw [List.takeWhile_append_of_pos hvalue, List.takeWhile_cons, hquote]
    simp
  have hdrop : (value ++ '"' :: next).dropWhile isValue = '"' :: next := by
    rw [List.dropWhile_append_of_pos hvalue, List.dropWhile_cons, hquote]
    simp
  have hsign : ∀ later, word? id ['='] (blanks ('=' :: later)) = some later := fun _ => rfl
  have hopen : ∀ later, quote? (blanks ('"' :: later)) = some later := fun _ => rfl
  have hclose : quote? ('"' :: next) = some next := rfl
  have htext : quoted name value ++ next =
      ' ' :: (name.toList ++ '=' :: '"' :: (value ++ '"' :: next)) := by simp [quoted]
  unfold attribute?
  simp only [htext, hblank, word?_of_map hname, hsign, hopen, htake, hdrop, hclose, hne,
    Option.bind_eq_bind, Option.bind_some, if_false]

/-- An element is found as a whole, with its text. -/
theorem shows_element_self (hopening : '<' :: name.toList ∈ marks)
    (hclosing : '<' :: '/' :: name.toList ∈ marks) (attributes : Attributes) (text : PlainText) :
    Shows (element? name) (opening name attributes ++ (text.chars ++ closing name)) next
      [text.chars] := by
  have hname : name.toList.map foldCase = name.toList :=
    (List.cons.inj (map_foldCase_mark _ hopening)).2
  refine .find (List.cons_ne_nil _ _) ?_
  rw [List.append_assoc, element?_of_isTag (isTag_opening hname attributes), List.append_assoc]
  refine untilClose?_append (fun later hne hlater => ?_) ?_
  · have hnone :
        word? foldCase ('<' :: '/' :: name.toList) (later ++ (closing name ++ next)) = none :=
      text.word?_eq_none hclosing hne hlater (bounded_of_head rfl (Or.inl rfl))
    rw [closeTag?, hnone]
    rfl
  · have hclose := @closeTag?_of_map name ('<' :: '/' :: name.toList)
      (map_foldCase_mark _ hclosing) next
    simpa [closing] using hclose

/-- A marker is found as it is written. -/
theorem markerTag?_render (path : MarkerPath) (name : Option MarkerName) :
    Marker.tag? foldCase ((Block.marker path name).render ++ next) =
      some (⟨String.ofList path.chars, name.map fun name => String.ofList name.chars⟩, next) := by
  have hend : tagEnd? ('/' :: '>' :: next) = some next := rfl
  have hrender : (Block.marker path name).render ++ next = "<amd-dependency".toList ++
      (quoted "path" path.chars ++ (Block.nameAttribute name ++ '/' :: '>' :: next)) := by
    show "<amd-dependency".toList ++
      (quoted "path" path.chars ++ (Block.nameAttribute name ++ ['/', '>'])) ++ next = _
    simp
  have hopen := @word?_of_map foldCase "<amd-dependency".toList "<amd-dependency".toList (by decide)
    (quoted "path" path.chars ++ (Block.nameAttribute name ++ '/' :: '>' :: next))
  have hpath : attribute? foldCase "path" (fun c => !isQuote c) (quoted "path" path.chars ++
      (Block.nameAttribute name ++ '/' :: '>' :: next)) =
      some (path.chars, Block.nameAttribute name ++ '/' :: '>' :: next) :=
    attribute?_quoted (by decide) (fun _ => rfl) (fun c hc => by simp [path.unquoted c hc])
      (by decide) path.ne_nil
  rw [hrender]
  simp only [Marker.tag?, hopen, hpath, Option.bind_eq_bind, Option.bind_some]
  cases name with
  | none =>
    have hname : attribute? foldCase "name" Marker.isNameChar ('/' :: '>' :: next) = none := rfl
    simp [Block.nameAttribute, hname, hend]
  | some name =>
    have hname : attribute? foldCase "name" Marker.isNameChar
        (quoted "name" name.chars ++ '/' :: '>' :: next) = some (name.chars, '/' :: '>' :: next) :=
      attribute?_quoted (by decide) (fun _ => rfl) name.clean (by decide) name.ne_nil
    simp [Block.nameAttribute, hname, hend]

/-! ### All blocks -/

/-- What a pattern finds in the blocks one by one, it finds in all of them, in order. -/
theorem Seeks.shows_renderBlocks (hseeks : Seeks words pattern) (hwords : words ⊆ marks)
    (hblock : ∀ block next, Shows pattern (Block.render block) next (value? block).toList)
    (blocks : List (Block × PlainText)) :
    Shows pattern (renderBlocks blocks) [] (blocks.filterMap fun block => value? block.1) := by
  induction blocks with
  | nil => exact .nil
  | cons first rest ih =>
    obtain ⟨block, text⟩ := first
    have hbounded : Bounded (renderBlocks rest ++ []) := by
      rw [List.append_nil]
      exact bounded_renderBlocks rest
    have hall := (hblock block _).append ((hseeks.shows_plain hwords text hbounded).append ih)
    rw [List.filterMap_cons]
    cases hvalue : value? block with
    | none => exact (hvalue ▸ hall :)
    | some value => exact (hvalue ▸ hall :)

/-- What a pattern finds in a document. -/
theorem Seeks.values_render (hseeks : Seeks words pattern) (hwords : words ⊆ marks)
    (hblock : ∀ block next, Shows pattern (Block.render block) next (value? block).toList)
    (document : Document) :
    (occurrences pattern document.render).map (·.value) =
      document.blocks.filterMap fun block => value? block.1 := by
  have hbounded : Bounded (renderBlocks document.blocks ++ []) := by
    rw [List.append_nil]
    exact bounded_renderBlocks document.blocks
  exact ((hseeks.shows_plain hwords document.lead hbounded).append
    (hseeks.shows_renderBlocks hwords hblock document.blocks)).values_occurrences

theorem scripts_render (document : Document) :
    (occurrences (element? "script") document.render).map (·.value) =
      document.blocks.filterMap fun block => block.1.script? := by
  have hseeks := seeks_element "script"
  have hwords : ['<' :: "script".toList] ⊆ marks := by decide
  refine hseeks.values_render hwords (fun block next => ?_) document
  cases block with
  | script attributes text => exact shows_element_self (by decide) (by decide) attributes text
  | style attributes text => exact hseeks.shows_block hwords (.style attributes text) rfl
  | template attributes inner =>
    exact hseeks.shows_block hwords (.template attributes inner) rfl
  | marker path name => exact hseeks.shows_block hwords (.marker path name) rfl

theorem styles_render (document : Document) :
    (occurrences (element? "style") document.render).map (·.value) =
      document.blocks.filterMap fun block => block.1.style? := by
  have hseeks := seeks_element "style"
  have hwords : ['<' :: "style".toList] ⊆ marks := by decide
  refine hseeks.values_render hwords (fun block next => ?_) document
  cases block with
  | script attributes text => exact hseeks.shows_block hwords (.script attributes text) rfl
  | style attributes text => exact shows_element_self (by decide) (by decide) attributes text
  | template attributes inner =>
    exact hseeks.shows_block hwords (.template attributes inner) rfl
  | marker path name => exact hseeks.shows_block hwords (.marker path name) rfl

theorem markers_render (document : Document) :
    (occurrences (Marker.tag? foldCase) document.render).map (·.value) =
      document.blocks.filterMap fun block => block.1.marker? := by
  have hwords : ["<amd-dependency".toList] ⊆ marks := by decide
  refine seeks_marker.values_render hwords (fun block next => ?_) document
  cases block with
  | script attributes text =>
    exact seeks_marker.shows_block hwords (.script attributes text) rfl
  | style attributes text =>
    exact seeks_marker.shows_block hwords (.style attributes text) rfl
  | template attributes inner =>
    exact seeks_marker.shows_block hwords (.template attributes inner) rfl
  | marker path name => exact .find (List.cons_ne_nil _ _) (markerTag?_render path name)

/-! ### Templates -/

/-- The tags in the text of a template, by whether they close. -/
def Inner.kinds : Inner → List Bool
  | text _ => []
  | nest _ _ inner after => false :: (inner.kinds ++ true :: after.kinds)

theorem Inner.balanced_kinds (inner : Inner) : Component.Balanced inner.kinds := by
  induction inner with
  | text _ => exact Component.balanced_nil
  | nest _ _ _ _ ihinner ihafter => exact ihinner.wrap ihafter

/-- In the text of a template the tags of the nested ones are found. -/
theorem Inner.shows_kinds (inner : Inner) (hnext : Bounded next) :
    Shows (tag? "template") inner.render next inner.kinds := by
  have hname : "template".toList.map foldCase = "template".toList := by decide
  have htag : ∀ {part next : List Char} {kind : Bool}, IsTag "template" kind part →
      Shows (tag? "template") part next [kind] := fun h =>
    .find h.ne_nil (Component.templateTag?_eq_some_iff.mpr ⟨_, rfl, h⟩)
  induction inner generalizing next with
  | text plain => exact (seeks_tag "template").shows_plain (by decide) plain hnext
  | nest before attributes inner after ihinner ihafter =>
    have hbehind : Shows (tag? "template") (closing "template" ++ after.render) next
        (true :: after.kinds) := (htag (isTag_closing hname)).append (ihafter hnext)
    have hinside : Shows (tag? "template") (inner.render ++ (closing "template" ++ after.render))
        next (inner.kinds ++ true :: after.kinds) :=
      (ihinner (bounded_of_head rfl (Or.inl rfl))).append hbehind
    have hnested : Shows (tag? "template") (opening "template" attributes ++
        (inner.render ++ (closing "template" ++ after.render))) next
        (false :: (inner.kinds ++ true :: after.kinds)) :=
      (htag (isTag_opening hname attributes)).append hinside
    exact ((seeks_tag "template").shows_plain (by decide) before
      (bounded_of_head rfl (Or.inl rfl))).append hnested

/-- A template block is the first template of what begins with it. -/
theorem firstTemplate?_template (attributes : Attributes) (inner : Inner) :
    Component.firstTemplate? ((Block.template attributes inner).render ++ next) =
      some inner.render := by
  have hname : "template".toList.map foldCase = "template".toList := by decide
  have hinner : Shows (tag? "template") inner.render (closing "template" ++ next) inner.kinds :=
    inner.shows_kinds (bounded_of_head rfl (Or.inl rfl))
  show Component.firstTemplate?
    (opening "template" attributes ++ (inner.render ++ closing "template") ++ next) = _
  rw [List.append_assoc, List.append_assoc]
  exact Component.firstTemplate?_of_balanced (isTag_opening hname attributes) hinner
    inner.balanced_kinds (isTag_closing hname)

/-- The other blocks have no template tags. -/
theorem shows_no_template {block : Block} (hblock : block.template? = none) :
    Shows (tag? "template") block.render next [] := by
  have hseeks := seeks_tag "template"
  have hwords : ['<' :: "template".toList, '<' :: '/' :: "template".toList] ⊆ marks := by decide
  cases block with
  | template attributes inner => exact absurd hblock (by simp [Block.template?])
  | script attributes text => exact hseeks.shows_block hwords (.script attributes text) rfl
  | style attributes text => exact hseeks.shows_block hwords (.style attributes text) rfl
  | marker path name => exact hseeks.shows_block hwords (.marker path name) rfl

/-- **The first template of a document** is the text of its first template block. -/
theorem firstTemplate?_render (text : PlainText) (blocks : List (Block × PlainText)) :
    Component.firstTemplate? (text.chars ++ renderBlocks blocks) =
      (blocks.filterMap fun block => block.1.template?).head? := by
  have hplain : Shows (tag? "template") text.chars (renderBlocks blocks) [] :=
    (seeks_tag "template").shows_plain (by decide) text (bounded_renderBlocks blocks)
  rw [Component.firstTemplate?_append hplain (by simp)]
  induction blocks generalizing text with
  | nil => rfl
  | cons first rest ih =>
    obtain ⟨block, behind⟩ := first
    have hbehind : Shows (tag? "template") behind.chars (renderBlocks rest) [] :=
      (seeks_tag "template").shows_plain (by decide) behind (bounded_renderBlocks rest)
    rw [renderBlocks, List.filterMap_cons]
    cases hblock : block.template? with
    | none =>
      rw [Component.firstTemplate?_append (shows_no_template hblock) (by simp),
        Component.firstTemplate?_append hbehind (by simp)]
      exact ih behind hbehind
    | some inner =>
      cases block with
      | template attributes inner =>
        obtain rfl := Option.some.inj hblock
        exact firstTemplate?_template attributes inner
      | _ => exact absurd hblock (by simp [Block.template?])

end Finding

/-! ## The law -/

/-- **Taking a component apart gives back what it was put together from.** A document is any list
of scripts, styles, templates and markers, in any order and with any plain texts around them;
templates may be nested in the templates to any depth. The text of it is taken apart into the first
script, the whole text of the first template, all styles and all markers, in order. -/
theorem ofMarkup_render (document : Document) :
    Component.ofMarkup (String.ofList document.render) = document.component := by
  have htemplate : Component.firstTemplate? document.render = _ :=
    firstTemplate?_render document.lead document.blocks
  have htexts : ∀ name : String, (occurrences (element? name) document.render).map
      (fun found => String.ofList found.value) =
      ((occurrences (element? name) document.render).map (·.value)).map String.ofList :=
    fun name => by rw [List.map_map]; rfl
  unfold Component.ofMarkup Document.component Marker.ofMarkup
  simp only [String.toList_ofList, htexts, scripts_render, styles_render, markers_render, htemplate]

/-- A template in a template, and a marker behind it. -/
example : ∃ document : Document,
    document.render = "<template><template>a</template></template>".toList ++
        "<amd-dependency path=\x22b\x22/>".toList ∧
      document.component.template = some "<template>a</template>" :=
  let empty : PlainText := ⟨[], by decide⟩
  let bare : Attributes := ⟨[], by simp, by simp⟩
  let inner : Inner := .nest empty bare (.text ⟨['a'], by decide⟩) (.text empty)
  let path : MarkerPath := ⟨⟨['b'], by decide⟩, by simp, by simp [isQuote]⟩
  ⟨⟨empty, [(.template bare inner, empty), (.marker path none, empty)]⟩,
    by decide +kernel, by decide +kernel⟩

end ScriptLink.Markup
