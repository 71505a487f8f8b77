import ScriptLink.Proofs.Step
import ScriptLink.Proofs.Tokenization

/-!
# Template literals nest

The scanner does not recurse on template literals. It keeps a mode and, for each interpolation that
is open, the number of braces that are open in it. The pieces it takes nevertheless form a nested
structure: in every interpolation the braces have their partners, a template literal inside counts
as one unit, and the brace that brings the count to zero is the one that closes the interpolation.

* **`Template.Quiet`** — text in which nothing ends a segment. `Template.quiet_of_open` and
  `Template.quiet_of_closing`: what a segment holds is quiet.
* **`Balanced`**, **`Literal`**, **`Interpolated`**, **`Remainder`** — the structure, by mutual
  recursion on the text as a reader sees it. `ScriptPieces` is a whole script, in which braces
  outside of literals need no partner.
* **`Context.Owes`** — what the text that is still to come has to bring in a given context: the
  bridge between the counters and the structure. `Context.owes_of_scan` goes along the scan, with
  one lemma for each kind of step.
* **`Context.CountsBraces`** — every interpolation that is open counts at least its own brace.
* **`template_structure`** — the law.
-/

namespace ScriptLink

/-! ## Template text -/

namespace Template

/-- Text with neither a back-tick nor the opener of an interpolation in it, unless a backslash takes
it along. No backslash at the end is left alone either. -/
inductive Quiet : List Char → Prop where
  | nil : Quiet []
  | escaped (c : Char) {rest : List Char} (hrest : Quiet rest) : Quiet ('\\' :: c :: rest)
  | plain {c : Char} {rest : List Char} (hslash : c ≠ '\\') (htick : c ≠ '\x60')
      (hopener : ¬ ['$', '\x7b'] <+: c :: rest) (hrest : Quiet rest) : Quiet (c :: rest)

/-- An opener that begins a part of the text begins the text. -/
theorem not_opener_of_initial {c : Char} {body rest : List Char} (hbody : body <+: rest)
    (h : ∀ tail, c = '$' → rest = '\x7b' :: tail → False) : ¬ ['$', '\x7b'] <+: c :: body := by
  rintro ⟨later, heq⟩
  obtain ⟨rfl, rfl⟩ := List.cons.inj heq
  obtain ⟨behind, rfl⟩ := hbody
  exact h _ rfl rfl

/-- A segment that stops before an interpolation is quiet, and the opener stands behind it. -/
theorem quiet_of_open {s text : List Char} (h : segment? s = some ⟨text, false⟩) :
    Quiet text ∧ ∃ later, s = text ++ '$' :: '\x7b' :: later := by
  fun_induction segment? s generalizing text with
  | case1 => exact absurd h (by simp)
  | case2 => exact absurd h (by simp)
  | case3 c rest ih =>
    obtain ⟨⟨found, closes⟩, hfound, heq⟩ := Option.map_eq_some_iff.mp h
    obtain ⟨rfl, rfl⟩ := Segment.mk.inj heq
    obtain ⟨hquiet, later, rfl⟩ := ih hfound
    exact ⟨.escaped c hquiet, later, rfl⟩
  | case4 rest =>
    obtain ⟨-, hcloses⟩ := Segment.mk.inj (Option.some.inj h)
    exact absurd hcloses (by simp)
  | case5 rest =>
    obtain ⟨rfl, -⟩ := Segment.mk.inj (Option.some.inj h)
    exact ⟨.nil, rest, rfl⟩
  | case6 c rest hend hslash htick hopener ih =>
    obtain ⟨⟨found, closes⟩, hfound, heq⟩ := Option.map_eq_some_iff.mp h
    obtain ⟨rfl, rfl⟩ := Segment.mk.inj heq
    obtain ⟨hquiet, later, rfl⟩ := ih hfound
    have hne : c ≠ '\\' := fun hc => by
      cases found with
      | nil => exact hslash _ _ hc rfl
      | cons _ _ => exact hslash _ _ hc rfl
    exact ⟨.plain hne htick (not_opener_of_initial (List.prefix_append _ _) hopener) hquiet,
      later, rfl⟩

/-- A segment that holds the closing back-tick is quiet up to it. -/
theorem quiet_of_closing {s text : List Char} (h : segment? s = some ⟨text, true⟩) :
    ∃ body, text = body ++ ['\x60'] ∧ Quiet body := by
  fun_induction segment? s generalizing text with
  | case1 => exact absurd h (by simp)
  | case2 => exact absurd h (by simp)
  | case3 c rest ih =>
    obtain ⟨⟨found, closes⟩, hfound, heq⟩ := Option.map_eq_some_iff.mp h
    obtain ⟨rfl, rfl⟩ := Segment.mk.inj heq
    obtain ⟨body, rfl, hquiet⟩ := ih hfound
    exact ⟨'\\' :: c :: body, rfl, .escaped c hquiet⟩
  | case4 rest =>
    obtain ⟨rfl, -⟩ := Segment.mk.inj (Option.some.inj h)
    exact ⟨[], rfl, .nil⟩
  | case5 rest =>
    obtain ⟨-, hcloses⟩ := Segment.mk.inj (Option.some.inj h)
    exact absurd hcloses (by simp)
  | case6 c rest hend hslash htick hopener ih =>
    obtain ⟨⟨found, closes⟩, hfound, heq⟩ := Option.map_eq_some_iff.mp h
    obtain ⟨rfl, rfl⟩ := Segment.mk.inj heq
    obtain ⟨body, rfl, hquiet⟩ := ih hfound
    obtain ⟨later, rfl⟩ := prefix_of_segment? hfound
    have hne : c ≠ '\\' := fun hc => by
      cases body with
      | nil => exact hslash _ _ hc rfl
      | cons _ _ => exact hslash _ _ hc rfl
    have hbody : body <+: body ++ ['\x60'] ++ later := ⟨['\x60'] ++ later, by simp⟩
    exact ⟨c :: body, rfl, .plain hne htick (not_opener_of_initial hbody hopener) hquiet⟩

end Template

/-! ## The structure -/

/-- The brace that opens. -/
def Piece.openBrace : Piece := ⟨.bracket, ['\x7b']⟩

/-- The brace that closes. -/
def Piece.closeBrace : Piece := ⟨.bracket, ['\x7d']⟩

/-- The opener of an interpolation. -/
def Piece.opener : Piece := ⟨.bracket, ['$', '\x7b']⟩

/-- A piece that belongs to no template literal: it is no template text and no opener, and it does
not begin with a back-tick. -/
structure Piece.IsOutside (piece : Piece) : Prop where
  kind : piece.kind ≠ .template
  opener : piece.text ≠ ['$', '\x7b']
  tick : piece.text.head? ≠ some '\x60'

/-- A piece outside of template literals that is no brace. -/
structure Piece.IsPlain (piece : Piece) : Prop extends piece.IsOutside where
  openBrace : piece.text ≠ ['\x7b']
  closeBrace : piece.text ≠ ['\x7d']

open Piece Template

mutual

/-- Program text in which every brace has its partner, each template literal taken as a unit. -/
inductive Balanced : List Piece → Prop where
  | nil : Balanced []
  | plain {piece : Piece} {rest : List Piece} (hpiece : piece.IsPlain) (hrest : Balanced rest) :
      Balanced (piece :: rest)
  | braces {inner rest : List Piece} (hinner : Balanced inner) (hrest : Balanced rest) :
      Balanced (openBrace :: (inner ++ closeBrace :: rest))
  | literal {unit rest : List Piece} (hunit : Literal unit) (hrest : Balanced rest) :
      Balanced (unit ++ rest)

/-- A template literal: one piece from back-tick to back-tick, or a head and what follows it. -/
inductive Literal : List Piece → Prop where
  | whole {body : List Char} (hbody : Quiet body) :
      Literal [⟨.template, '\x60' :: (body ++ ['\x60'])⟩]
  | head {body : List Char} {later : List Piece} (hbody : Quiet body)
      (hlater : Interpolated later) : Literal (⟨.template, '\x60' :: body⟩ :: later)

/-- An interpolation from its opener to the brace that closes it, and the rest of the literal. -/
inductive Interpolated : List Piece → Prop where
  | mk {inner later : List Piece} (hinner : Balanced inner) (hlater : Remainder later) :
      Interpolated (opener :: (inner ++ closeBrace :: later))

/-- What follows an interpolation: the tail, or another interpolation with or without a segment of
text before it. -/
inductive Remainder : List Piece → Prop where
  | tail {body : List Char} (hbody : Quiet body) : Remainder [⟨.template, body ++ ['\x60']⟩]
  | next {later : List Piece} (hlater : Interpolated later) : Remainder later
  | segment {text : List Char} {later : List Piece} (hne : text ≠ []) (htext : Quiet text)
      (hlater : Interpolated later) : Remainder (⟨.template, text⟩ :: later)

end

/-- A whole script: template literals and pieces outside of them, braces as they come. -/
inductive ScriptPieces : List Piece → Prop where
  | nil : ScriptPieces []
  | outside {piece : Piece} {rest : List Piece} (hpiece : piece.IsOutside)
      (hrest : ScriptPieces rest) : ScriptPieces (piece :: rest)
  | literal {unit rest : List Piece} (hunit : Literal unit) (hrest : ScriptPieces rest) :
      ScriptPieces (unit ++ rest)

theorem isOutside_openBrace : openBrace.IsOutside :=
  ⟨by decide, by decide, by decide⟩

theorem isOutside_closeBrace : closeBrace.IsOutside :=
  ⟨by decide, by decide, by decide⟩

/-! ## Counting braces -/

/-- `Closes depth pieces later`: the pieces bring `depth` closing braces, with balanced program text
before each of them, and go on with `later`. -/
inductive Closes : Nat → List Piece → List Piece → Prop where
  | one {inner later : List Piece} (hinner : Balanced inner) :
      Closes 1 (inner ++ closeBrace :: later) later
  | more {depth : Nat} {inner pieces later : List Piece} (hinner : Balanced inner)
      (hmore : Closes depth pieces later) :
      Closes (depth + 1) (inner ++ closeBrace :: pieces) later

namespace Closes

variable {depth : Nat} {pieces later unit : List Piece} {piece : Piece}

theorem plain (hpiece : piece.IsPlain) (h : Closes depth pieces later) :
    Closes depth (piece :: pieces) later := by
  cases h with
  | one hinner => exact .one (.plain hpiece hinner)
  | more hinner hmore => exact .more (.plain hpiece hinner) hmore

theorem literal (hunit : Literal unit) (h : Closes depth pieces later) :
    Closes depth (unit ++ pieces) later := by
  cases h with
  | one hinner =>
    rw [← List.append_assoc]
    exact .one (.literal hunit hinner)
  | more hinner hmore =>
    rw [← List.append_assoc]
    exact .more (.literal hunit hinner) hmore

/-- An opening brace takes the next closing one for itself. -/
theorem openBrace (h : Closes (depth + 1) pieces later) (hdepth : 1 ≤ depth) :
    Closes depth (openBrace :: pieces) later := by
  cases h with
  | one hinner => exact absurd hdepth (by simp)
  | more hinner hmore =>
    cases hmore with
    | one hinner' => simpa using Closes.one (.braces hinner hinner')
    | more hinner' hmore' => simpa using Closes.more (.braces hinner hinner') hmore'

theorem closeBrace (h : Closes depth pieces later) :
    Closes (depth + 1) (closeBrace :: pieces) later :=
  .more .nil h

theorem depth_pos (h : Closes depth pieces later) : 1 ≤ depth := by
  cases h with
  | one _ => exact Nat.le_refl 1
  | more _ _ => exact Nat.le_add_left 1 _

theorem eq_of_one (h : Closes 1 pieces later) :
    ∃ inner, Balanced inner ∧ pieces = inner ++ Piece.closeBrace :: later := by
  cases h with
  | one hinner => exact ⟨_, hinner, rfl⟩
  | more _ hmore => exact absurd hmore.depth_pos (by simp)

end Closes

/-- What has to come in program text: for each interpolation that is open, innermost first, the
closing braces it counts and the rest of its literal. -/
inductive Unwinds : List Interpolation → List Piece → Prop where
  | nil {pieces : List Piece} (hpieces : ScriptPieces pieces) : Unwinds [] pieces
  | cons {top : Interpolation} {outer : List Interpolation} {pieces unit rest : List Piece}
      (hcloses : Closes top.depth pieces (unit ++ rest)) (hunit : Remainder unit)
      (hrest : Unwinds outer rest) : Unwinds (top :: outer) pieces

namespace Unwinds

variable {stack : List Interpolation} {pieces unit : List Piece} {piece : Piece}

theorem plain (hpiece : piece.IsPlain) (h : Unwinds stack pieces) :
    Unwinds stack (piece :: pieces) := by
  cases h with
  | nil hpieces => exact .nil (.outside hpiece.toIsOutside hpieces)
  | cons hcloses hunit hrest => exact .cons (hcloses.plain hpiece) hunit hrest

theorem literal (hunit : Literal unit) (h : Unwinds stack pieces) :
    Unwinds stack (unit ++ pieces) := by
  cases h with
  | nil hpieces => exact .nil (.literal hunit hpieces)
  | cons hcloses hremainder hrest => exact .cons (hcloses.literal hunit) hremainder hrest

end Unwinds

namespace Context

/-- What has to come in a context, where `text` is still to be read: in program text what unwinds
the open interpolations, and in template text the rest of the literal before it. The opener of an
interpolation is no text, so a literal that is interrupted right here goes on with one. -/
inductive Owes : Context → List Char → List Piece → Prop where
  | code {stack : List Interpolation} {text : List Char} {pieces : List Piece}
      (hpieces : Unwinds stack pieces) : Owes ⟨.code, stack⟩ text pieces
  | template {opened : Nat} {stack : List Interpolation} {text : List Char}
      {unit rest : List Piece} (hunit : Remainder unit)
      (hopener : ['$', '\x7b'] <+: text → Interpolated unit) (hrest : Unwinds stack rest) :
      Owes ⟨.template opened, stack⟩ text (unit ++ rest)

/-- Every interpolation that is open counts its own brace at least. -/
def CountsBraces (context : Context) : Prop :=
  ∀ interpolation ∈ context.interpolations, 1 ≤ interpolation.depth

variable {context : Context} {position opened : Nat} {c : Char} {rest : List Char} {step : Step}
  {stack : List Interpolation} {text : List Char} {pieces : List Piece}

theorem Owes.unwinds (h : Owes ⟨.code, stack⟩ text pieces) : Unwinds stack pieces := by
  cases h with
  | code hpieces => exact hpieces

/-! ### Steps in program text -/

theorem owes_of_openBrace (hcounts : CountsBraces ⟨.code, stack⟩)
    (h : Owes (openBrace ⟨.code, stack⟩) rest pieces) :
    Owes ⟨.code, stack⟩ text (Piece.openBrace :: pieces) := by
  cases stack with
  | nil =>
    cases h.unwinds with
    | nil hpieces => exact .code (.nil (.outside isOutside_openBrace hpieces))
  | cons top outer =>
    cases h.unwinds with
    | cons hcloses hunit hrest =>
      exact .code (.cons (hcloses.openBrace (hcounts top List.mem_cons_self)) hunit hrest)

theorem owes_of_closeBrace (hcounts : CountsBraces ⟨.code, stack⟩)
    (h : Owes (closeBrace ⟨.code, stack⟩) rest pieces) :
    Owes ⟨.code, stack⟩ text (Piece.closeBrace :: pieces) := by
  cases stack with
  | nil =>
    cases h.unwinds with
    | nil hpieces => exact .code (.nil (.outside isOutside_closeBrace hpieces))
  | cons top outer =>
    have hdepth : 1 ≤ top.depth := hcounts top List.mem_cons_self
    unfold closeBrace at h
    dsimp only at h
    split at h
    · next hlast =>
      -- the brace is the interpolation's own
      obtain ⟨depth, opened⟩ := top
      obtain rfl : depth = 1 := by dsimp only at hdepth hlast; omega
      cases h with
      | template hunit _ hrest => exact .code (.cons (.one .nil) hunit hrest)
    · next hmore =>
      cases h.unwinds with
      | cons hcloses hunit hrest =>
        refine .code (.cons ?_ hunit hrest)
        rw [show top.depth = top.depth - 1 + 1 by omega]
        exact hcloses.closeBrace

/-- A back-tick opens a literal, which ends in the same piece or goes on with an interpolation. -/
theorem owes_of_tick {segment : Template.Segment} (hsegment : Template.segment? rest = some segment)
    (h : Owes (afterSegment ⟨.code, stack⟩ opened segment) (rest.drop segment.text.length) pieces) :
    Owes ⟨.code, stack⟩ text (⟨.template, '\x60' :: segment.text⟩ :: pieces) := by
  obtain ⟨found, closes⟩ := segment
  cases closes with
  | true =>
    obtain ⟨body, rfl, hbody⟩ := Template.quiet_of_closing hsegment
    exact .code (h.unwinds.literal (.whole hbody))
  | false =>
    obtain ⟨hfound, later, rfl⟩ := Template.quiet_of_open hsegment
    cases h with
    | template _ hopener hrest =>
      have hunit := hopener (by simp)
      exact .code (hrest.literal (.head hfound hunit))

/-- A piece that begins with neither a brace nor a back-tick is plain. -/
theorem isPlain_of_codeStep (h : context.codeStep position c rest = .ok step)
    (hopen : c ≠ '\x7b') (hclose : c ≠ '\x7d') (htick : c ≠ '\x60') :
    (⟨step.kind, c :: step.tail⟩ : Piece).IsPlain := by
  obtain ⟨kind, tail, hkind, rfl⟩ := plain_of_codeStep h hopen hclose htick
  refine ⟨⟨hkind, fun hopener => ?_, fun htext => htick (Option.some.inj htext)⟩,
    fun htext => hopen (List.cons.inj htext).1, fun htext => hclose (List.cons.inj htext).1⟩
  -- a dollar sign begins a name, and a brace does not go on with it
  obtain ⟨rfl, htail⟩ := List.cons.inj hopener
  rw [codeStep_eq, show Lead.of '$' = .word by decide] at h
  have hnames : rest.takeWhile Identifier.isContinue = ['\x7b'] :=
    (congrArg Step.tail (Except.ok.inj h)).trans htail
  have hbrace : Identifier.isContinue '\x7b' = true :=
    List.all_eq_true.mp List.all_takeWhile '\x7b' (hnames ▸ List.mem_singleton_self _)
  exact absurd hbrace (by decide)

theorem owes_of_codeStep (h : codeStep ⟨.code, stack⟩ position c rest = .ok step)
    (hcounts : CountsBraces ⟨.code, stack⟩)
    (hlater : Owes step.next (rest.drop step.tail.length) pieces) :
    Owes ⟨.code, stack⟩ text (⟨step.kind, c :: step.tail⟩ :: pieces) := by
  rcases codeStep_cases h with ⟨rfl, rfl⟩ | ⟨rfl, rfl⟩ | ⟨rfl, segment, hsegment, rfl⟩ |
    ⟨hopen, hclose, htick, -⟩
  · exact owes_of_openBrace hcounts hlater
  · exact owes_of_closeBrace hcounts hlater
  · exact owes_of_tick hsegment hlater
  · have hplain := isPlain_of_codeStep h hopen hclose htick
    obtain ⟨kind, tail, -, rfl⟩ := plain_of_codeStep h hopen hclose htick
    exact .code (hlater.unwinds.plain hplain)

/-! ### Steps in template text -/

theorem owes_of_templateStep (h : templateStep ⟨.template opened, stack⟩ opened c rest = .ok step)
    (hlater : Owes step.next (rest.drop step.tail.length) pieces) :
    Owes ⟨.template opened, stack⟩ (c :: rest) (⟨step.kind, c :: step.tail⟩ :: pieces) := by
  rcases templateStep_cases h with ⟨later, heq, rfl⟩ | ⟨tail, closes, hsegment, rfl⟩
  · -- an opener: the text of the interpolation comes, and then the rest of the literal
    obtain ⟨rfl, -⟩ := List.cons.inj heq
    cases hlater.unwinds with
    | cons hcloses hunit hrest =>
      obtain ⟨inner, hinner, rfl⟩ := hcloses.eq_of_one
      have hliteral : Interpolated (opener :: (inner ++ Piece.closeBrace :: _)) := .mk hinner hunit
      have howes : Owes ⟨.template opened, stack⟩ ('$' :: rest) _ :=
        .template (.next hliteral) (fun _ => hliteral) hrest
      simpa [opener] using howes
  · -- no opener comes first, since the segment is not empty
    have hopener : ¬ ['$', '\x7b'] <+: c :: rest := by
      rintro ⟨later, heq⟩
      rw [← heq] at hsegment
      exact absurd (congrArg Template.Segment.text (Option.some.inj hsegment)) (by simp)
    cases closes with
    | true =>
      obtain ⟨body, hbody, hquiet⟩ := Template.quiet_of_closing hsegment
      have htail : Remainder [⟨.template, c :: tail⟩] := by
        rw [hbody]
        exact .tail hquiet
      exact .template htail (fun hmeets => absurd hmeets hopener) hlater.unwinds
    | false =>
      obtain ⟨hquiet, later, hsplit⟩ := Template.quiet_of_open hsegment
      obtain ⟨-, rfl⟩ := List.cons.inj hsplit
      cases hlater with
      | template _ hmeets hrest =>
        have hunit := hmeets (by simp)
        exact .template (.segment (by simp) hquiet hunit) (fun hmeets => absurd hmeets hopener)
          hrest

/-! ### The counters -/

theorem CountsBraces.openBrace (h : CountsBraces context) : CountsBraces context.openBrace := by
  unfold Context.openBrace
  split
  · exact h
  · next top outer hopen =>
    intro interpolation hmem
    rcases List.mem_cons.mp hmem with rfl | hmem
    · exact Nat.le_add_left 1 _
    · exact h _ (hopen ▸ List.mem_cons_of_mem _ hmem)

theorem CountsBraces.closeBrace (h : CountsBraces context) : CountsBraces context.closeBrace := by
  unfold Context.closeBrace
  split
  · exact h
  · next top outer hopen =>
    have houter : ∀ interpolation ∈ outer, 1 ≤ interpolation.depth :=
      fun _ hmem => h _ (hopen ▸ List.mem_cons_of_mem _ hmem)
    split
    · exact houter
    · next hmore =>
      intro interpolation hmem
      rcases List.mem_cons.mp hmem with rfl | hmem
      · exact Nat.pos_of_ne_zero hmore
      · exact houter _ hmem

theorem countsBraces_of_step (h : CountsBraces context)
    (hstep : context.step position c rest = .ok step) : CountsBraces step.next := by
  unfold Context.step at hstep
  split at hstep
  · rcases codeStep_cases hstep with ⟨-, rfl⟩ | ⟨-, rfl⟩ | ⟨-, segment, -, rfl⟩ |
      ⟨-, -, -, kind, tail, -, rfl⟩
    · exact h.openBrace
    · exact h.closeBrace
    · exact h
    · exact h
  · rcases templateStep_cases hstep with ⟨later, -, rfl⟩ | ⟨tail, closes, -, rfl⟩
    · intro interpolation hmem
      rcases List.mem_cons.mp hmem with rfl | hmem
      · exact Nat.le_refl 1
      · exact h _ hmem
    · exact h

/-! ### The scan -/

/-- What the scan finds is what its context owes. -/
theorem owes_of_scan (hcounts : CountsBraces context) {text : List Char} {found : List Piece}
    (h : context.scan position text = .ok found) : Owes context text found := by
  induction h using scan_induction with
  | stop position => exact .code (.nil .nil)
  | @step context position c rest step later hstep hlater ih =>
    have howes := ih (countsBraces_of_step hcounts hstep)
    obtain ⟨mode, stack⟩ := context
    cases mode with
    | code => exact owes_of_codeStep hstep hcounts howes
    | template opened => exact owes_of_templateStep hstep howes

/-- The scan of a script comes to a context, with the text that is still to be read from a
position on. -/
inductive Comes (source : String) : Context → Nat → List Char → Prop where
  | start : Comes source .start 0 source.toList
  | step {context : Context} {position : Nat} {c : Char} {rest : List Char} {step : Step}
      (hcomes : Comes source context position (c :: rest))
      (hstep : context.step position c rest = .ok step) :
      Comes source step.next (position + byteLength (c :: step.tail))
        (rest.drop step.tail.length)

theorem Comes.countsBraces {source : String} (h : Comes source context position text) :
    CountsBraces context := by
  induction h with
  | start => exact fun _ hmem => absurd hmem List.not_mem_nil
  | step _ hstep ih => exact countsBraces_of_step ih hstep

end Context

/-! ## The text of template pieces -/

/-- The text of a template piece: quiet text, behind a back-tick if the piece opens a literal and
before one if it closes one. -/
def IsTemplateText (text : List Char) : Prop :=
  ∃ before body after, text = before ++ body ++ after ∧ Quiet body ∧
    (before = [] ∨ before = ['\x60']) ∧ (after = [] ∨ after = ['\x60'])

/-- What a segment adds to the opening back-tick, or to nothing, is template text. -/
theorem isTemplateText_of_segment {s before : List Char} {segment : Template.Segment}
    (h : Template.segment? s = some segment) (hbefore : before = [] ∨ before = ['\x60']) :
    IsTemplateText (before ++ segment.text) := by
  obtain ⟨text, closes⟩ := segment
  cases closes with
  | true =>
    obtain ⟨body, rfl, hbody⟩ := Template.quiet_of_closing h
    exact ⟨before, body, ['\x60'], by simp, hbody, hbefore, .inr rfl⟩
  | false =>
    obtain ⟨htext, -⟩ := Template.quiet_of_open h
    exact ⟨before, text, [], by simp, htext, hbefore, .inl rfl⟩

namespace Context

variable {context : Context} {position : Nat} {c : Char} {rest : List Char} {step : Step}

theorem isTemplateText_of_step (h : context.step position c rest = .ok step)
    (hkind : step.kind = .template) : IsTemplateText (c :: step.tail) := by
  unfold Context.step at h
  split at h
  · rcases codeStep_cases h with ⟨-, rfl⟩ | ⟨-, rfl⟩ | ⟨rfl, segment, hsegment, rfl⟩ |
      ⟨-, -, -, kind, tail, hne, rfl⟩
    · exact absurd hkind (by simp)
    · exact absurd hkind (by simp)
    · exact isTemplateText_of_segment hsegment (.inr rfl)
    · exact absurd hkind hne
  · rcases templateStep_cases h with ⟨later, -, rfl⟩ | ⟨tail, closes, hsegment, rfl⟩
    · exact absurd hkind (by simp)
    · exact isTemplateText_of_segment hsegment (.inl rfl)

end Context

/-! ## The law -/

/-- **Template literals nest.** If a text is taken apart, its tokens are those of a script in which
every template literal is one piece from back-tick to back-tick, or a head, interpolations with
balanced program text, and a tail; and the text of a template token is quiet between its back-ticks.
Whatever becomes of the text, an interpolation that is open counts at least one brace all the way,
so there is always one to take back. -/
theorem template_structure (source : String) :
    (∀ stream, tokenize source = .ok stream →
      ScriptPieces stream.toPieces ∧
        ∀ token ∈ stream.tokens.toList, token.kind = .template →
          IsTemplateText token.lexeme.toList) ∧
    ∀ context position rest, Context.Comes source context position rest →
      ∀ interpolation ∈ context.interpolations, 1 ≤ interpolation.depth := by
  refine ⟨fun stream hstream => ?_, fun context position rest hcomes => hcomes.countsBraces⟩
  have hpieces := toPieces_of_tokenize hstream
  have hcounts : Context.start.CountsBraces := fun _ hmem => absurd hmem List.not_mem_nil
  constructor
  · have howes := Context.owes_of_scan hcounts hpieces
    cases howes.unwinds with
    | nil hscript => exact hscript
  · intro token hmem hkind
    exact Context.forall_of_scan (fun kind text => kind = .template → IsTemplateText text)
      Context.isTemplateText_of_step hpieces token.toPiece (List.mem_map_of_mem hmem) hkind

/-- A literal in braces in an interpolation of a literal; behind the inner brace two are open. -/
theorem nested_literal_structure :
    let source := "\x60a$\x7b\x7b\x60b\x60\x7d\x7d\x60"
    (∃ stream, tokenize source = .ok stream ∧ ScriptPieces stream.toPieces ∧
      stream.toPieces = [⟨.template, ['\x60', 'a']⟩, opener, openBrace,
        ⟨.template, ['\x60', 'b', '\x60']⟩, closeBrace, closeBrace, ⟨.template, ['\x60']⟩]) ∧
    ∃ context position rest, Context.Comes source context position rest ∧
      context.interpolations.map Interpolation.depth = [2] ∧
      ∀ interpolation ∈ context.interpolations, 1 ≤ interpolation.depth := by
  intro source
  have hlaw := template_structure source
  constructor
  · have hfound : (tokenize source).toOption.map TokenStream.toPieces =
        some [⟨.template, ['\x60', 'a']⟩, opener, openBrace, ⟨.template, ['\x60', 'b', '\x60']⟩,
          closeBrace, closeBrace, ⟨.template, ['\x60']⟩] := by decide +kernel
    cases hstream : tokenize source with
    | error error =>
      rw [hstream] at hfound
      exact absurd hfound (by simp [Except.toOption])
    | ok stream =>
      rw [hstream] at hfound
      exact ⟨stream, rfl, (hlaw.1 stream hstream).1, Option.some.inj hfound⟩
  · have htext : source.toList =
        ['\x60', 'a', '$', '\x7b', '\x7b', '\x60', 'b', '\x60', '\x7d', '\x7d', '\x60'] := by
      decide +kernel
    have hstart : Context.Comes source .start 0 source.toList := .start
    rw [htext] at hstart
    have hhead : Context.Comes source ⟨.template 0, []⟩ 2 _ := hstart.step rfl
    have hopener : Context.Comes source ⟨.code, [⟨1, 0⟩]⟩ 4 _ := hhead.step rfl
    have hbrace : Context.Comes source ⟨.code, [⟨2, 0⟩]⟩ 5 _ := hopener.step rfl
    exact ⟨_, _, _, hbrace, rfl, hlaw.2 _ _ _ hbrace⟩

end ScriptLink
