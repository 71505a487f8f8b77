import ScriptLink.Proofs.LineBreak
import ScriptLink.Proofs.Shape

/-!
# Scanning a text again

A script that has been rewritten is scanned once more. Its pieces stand elsewhere than before, and
white space that was apart can have come together, so the two scans are compared by what does not
depend on either.

* **`Scanned`** — pieces that the scanner takes off the text they make up. Where the text stands
  plays no part in it (`Scanned.scan`): contexts are `Alike` if they differ in the places they
  remember at most.
* **`Reads`** — what the scanner finds in a text besides white space. Pieces can be put in front of a
  text, and so can white space (`Reads.blanks`).
* **`Rescans`** — what it finds besides trivia. Comments can be put in front too, and what the pass
  writes (`Rescans.marked`, `Rescans.assigned`).
* **`Passable`** — a text that can stand before anything. The trivia in front of a token is
  (`Scanned.passable`).
-/

namespace ScriptLink

open Context

/-- No trivia. -/
def Piece.isMeaningful (piece : Piece) : Bool := !piece.kind.isTrivia

/-- The text that pieces make up. -/
def Piece.texts (pieces : List Piece) : List Char := pieces.flatMap Piece.text

@[simp] theorem Piece.texts_nil : Piece.texts [] = [] := rfl

@[simp] theorem Piece.texts_cons (piece : Piece) (rest : List Piece) :
    Piece.texts (piece :: rest) = piece.text ++ Piece.texts rest := rfl

@[simp] theorem Piece.texts_append (pieces rest : List Piece) :
    Piece.texts (pieces ++ rest) = Piece.texts pieces ++ Piece.texts rest :=
  List.flatMap_append

/-! ## What the scanner takes -/

/-- The scanner takes the pieces off the text that they make up, from the given context to the end
of a script. Where they stand plays no part in it. -/
inductive Scanned : Context → List Piece → Prop where
  | nil : Scanned .start []
  | cons {context next : Context} {position : Nat} {c : Char} {tail : List Char} {kind : TokenKind}
      {rest : List Piece}
      (hstep : context.step position c (tail ++ Piece.texts rest) = .ok ⟨kind, tail, next⟩)
      (hrest : Scanned next rest) : Scanned context (⟨kind, c :: tail⟩ :: rest)

theorem scanned_of_scan {context : Context} {position : Nat} {text : List Char}
    {found : List Piece} (h : context.scan position text = .ok found) :
    Scanned context found := by
  induction h using scan_induction with
  | stop position => exact .nil
  | @step context position c rest step later hstep hlater ih =>
    have htexts : Piece.texts later = rest.drop step.tail.length := (scan_pieces hlater).1
    have hsplit := List.prefix_iff_eq_append.mp (prefix_of_step hstep)
    have hagain : context.step position c (step.tail ++ Piece.texts later) = .ok step := by
      rw [htexts, hsplit]
      exact hstep
    exact .cons hagain ih

/-! ### Where the pieces stand -/

namespace Context

/-- The contexts differ at most in the places that they remember. -/
structure Alike (context other : Context) : Prop where
  mode : context.mode = .code ↔ other.mode = .code
  depths : context.interpolations.map (·.depth) = other.interpolations.map (·.depth)

namespace Alike

variable {context other next : Context} {position : Nat} {c : Char} {rest tail : List Char}
  {kind : TokenKind}

theorem refl (context : Context) : Alike context context := ⟨Iff.rfl, rfl⟩

/-- Stacks of the same depths are empty together, or have alike tops on alike rests. -/
theorem stack_cases {stack stack' : List Interpolation}
    (h : stack.map (·.depth) = stack'.map (·.depth)) :
    (stack = [] ∧ stack' = []) ∨ ∃ top outer top' outer', stack = top :: outer ∧
      stack' = top' :: outer' ∧ top.depth = top'.depth ∧
      outer.map (·.depth) = outer'.map (·.depth) := by
  cases stack with
  | nil => exact Or.inl ⟨rfl, List.map_eq_nil_iff.mp h.symm⟩
  | cons top outer =>
    obtain ⟨top', outer', rfl, htop, houter⟩ := List.map_eq_cons_iff.mp h.symm
    exact Or.inr ⟨top, outer, top', outer', rfl, rfl, htop.symm, houter.symm⟩

theorem openBrace (h : Alike context other) : Alike context.openBrace other.openBrace := by
  obtain ⟨mode, stack⟩ := context
  obtain ⟨mode', stack'⟩ := other
  obtain ⟨hmode, hdepths⟩ := h
  obtain ⟨rfl, rfl⟩ | ⟨top, outer, top', outer', rfl, rfl, htop, houter⟩ := stack_cases hdepths
  · exact ⟨hmode, rfl⟩
  · exact ⟨hmode, by simp [Context.openBrace, htop, houter]⟩

theorem closeBrace (h : Alike context other) : Alike context.closeBrace other.closeBrace := by
  obtain ⟨mode, stack⟩ := context
  obtain ⟨mode', stack'⟩ := other
  obtain ⟨hmode, hdepths⟩ := h
  obtain ⟨rfl, rfl⟩ | ⟨top, outer, top', outer', rfl, rfl, htop, houter⟩ := stack_cases hdepths
  · exact ⟨hmode, rfl⟩
  · simp only [Context.closeBrace, ← htop]
    split
    · exact ⟨by simp, houter⟩
    · exact ⟨hmode, by simp [htop, houter]⟩

/-- A piece that leaves the one context alone leaves the other alone too. -/
theorem operatorStep (other : Context)
    (hstep : context.operatorStep c rest = ⟨kind, tail, next⟩) :
    next = context ∧ other.operatorStep c rest = ⟨kind, tail, other⟩ := by
  unfold Context.operatorStep at hstep ⊢
  split at hstep
  · obtain ⟨rfl, rfl, rfl⟩ := Step.mk.inj hstep
    exact ⟨rfl, rfl⟩
  · obtain ⟨rfl, rfl, rfl⟩ := Step.mk.inj hstep
    exact ⟨rfl, rfl⟩

theorem slashStep (other : Context) (place : Nat)
    (hstep : context.slashStep position rest = .ok ⟨kind, tail, next⟩) :
    next = context ∧ other.slashStep place rest = .ok ⟨kind, tail, other⟩ := by
  unfold Context.slashStep at hstep ⊢
  dsimp only at hstep ⊢
  split at hstep
  · obtain ⟨rfl, rfl, rfl⟩ := Step.mk.inj (Except.ok.inj hstep)
    exact ⟨rfl, rfl⟩
  · split at hstep
    · obtain ⟨rfl, rfl, rfl⟩ := Step.mk.inj (Except.ok.inj hstep)
      exact ⟨rfl, rfl⟩
    · exact absurd hstep (by simp)
  · split at hstep
    · obtain ⟨rfl, rfl, rfl⟩ := Step.mk.inj (Except.ok.inj hstep)
      exact ⟨rfl, rfl⟩
    · obtain ⟨hnext, hother⟩ := operatorStep other (Except.ok.inj hstep)
      exact ⟨hnext, congrArg Except.ok hother⟩

theorem codeStep (h : Alike context other)
    (hstep : context.codeStep position c rest = .ok ⟨kind, tail, next⟩) (place : Nat) :
    ∃ next', other.codeStep place c rest = .ok ⟨kind, tail, next'⟩ ∧ Alike next next' := by
  rw [codeStep_eq] at hstep ⊢
  generalize Lead.of c = lead at hstep ⊢
  cases lead with
  | openBrace =>
    obtain ⟨rfl, rfl, rfl⟩ := Step.mk.inj (Except.ok.inj hstep)
    exact ⟨_, rfl, h.openBrace⟩
  | closeBrace =>
    obtain ⟨rfl, rfl, rfl⟩ := Step.mk.inj (Except.ok.inj hstep)
    exact ⟨_, rfl, h.closeBrace⟩
  | bracket | word | blank =>
    obtain ⟨rfl, rfl, rfl⟩ := Step.mk.inj (Except.ok.inj hstep)
    exact ⟨_, rfl, h⟩
  | tick =>
    dsimp only at hstep ⊢
    split at hstep
    · obtain ⟨rfl, rfl, rfl⟩ := Step.mk.inj (Except.ok.inj hstep)
      refine ⟨_, rfl, ⟨?_, h.depths⟩⟩
      unfold afterSegment
      dsimp only
      split <;> simp
    · exact absurd hstep (by simp)
  | quote =>
    dsimp only at hstep ⊢
    split at hstep
    · obtain ⟨rfl, rfl, rfl⟩ := Step.mk.inj (Except.ok.inj hstep)
      exact ⟨_, rfl, h⟩
    · exact absurd hstep (by simp)
  | slash =>
    obtain ⟨rfl, hother⟩ := slashStep other place hstep
    exact ⟨other, hother, h⟩
  | digit =>
    dsimp only at hstep ⊢
    split at hstep <;>
      (obtain ⟨rfl, rfl, rfl⟩ := Step.mk.inj (Except.ok.inj hstep); exact ⟨_, rfl, h⟩)
  | mark =>
    dsimp only at hstep ⊢
    split at hstep
    · next hseparator =>
      obtain ⟨rfl, rfl, rfl⟩ := Step.mk.inj (Except.ok.inj hstep)
      exact ⟨other, if_pos hseparator, h⟩
    · next hseparator =>
      obtain ⟨rfl, hother⟩ := operatorStep other (Except.ok.inj hstep)
      exact ⟨other, (if_neg hseparator).trans (congrArg Except.ok hother), h⟩

theorem templateStep (h : Alike context other) {opened : Nat}
    (hstep : context.templateStep opened c rest = .ok ⟨kind, tail, next⟩) (place : Nat) :
    ∃ next', other.templateStep place c rest = .ok ⟨kind, tail, next'⟩ ∧ Alike next next' := by
  unfold Context.templateStep at hstep ⊢
  split at hstep
  · exact absurd hstep (by simp)
  · obtain ⟨rfl, rfl, rfl⟩ := Step.mk.inj (Except.ok.inj hstep)
    exact ⟨_, rfl, ⟨by simp [openInterpolation], by simp [openInterpolation, h.depths]⟩⟩
  · next text closes hne hsegment =>
    obtain ⟨rfl, rfl, rfl⟩ := Step.mk.inj (Except.ok.inj hstep)
    refine ⟨_, rfl, ⟨?_, h.depths⟩⟩
    unfold afterSegment
    dsimp only
    split <;> simp

theorem step (h : Alike context other)
    (hstep : context.step position c rest = .ok ⟨kind, tail, next⟩) (place : Nat) :
    ∃ next', other.step place c rest = .ok ⟨kind, tail, next'⟩ ∧ Alike next next' := by
  unfold Context.step at hstep ⊢
  split at hstep
  · next hmode =>
    rw [h.mode.mp hmode]
    exact codeStep h hstep place
  · next opened hmode =>
    cases hother : other.mode with
    | code =>
      rw [h.mode.mpr hother] at hmode
      exact absurd hmode (by simp)
    | template opened' => exact templateStep h hstep opened'

theorem finish (h : Alike .start other) : other.finish = .ok () := by
  obtain ⟨mode, stack⟩ := other
  obtain rfl : mode = .code := h.mode.mp rfl
  obtain rfl : stack = [] := by simpa [Context.start] using h.depths.symm
  rfl

end Alike
end Context

/-- The scanner takes the pieces wherever they stand. -/
theorem Scanned.scan {context other : Context} {pieces : List Piece} (h : Scanned context pieces)
    (halike : Alike context other) (place : Nat) :
    other.scan place (Piece.texts pieces) = .ok pieces := by
  induction h generalizing other place with
  | nil =>
    unfold Context.scan
    rw [halike.finish]
    rfl
  | @cons context next position c tail kind rest hstep hrest ih =>
    obtain ⟨next', hother, hnext⟩ := halike.step hstep place
    show other.scan place (c :: (tail ++ Piece.texts rest)) = _
    rw [Context.scan, hother]
    dsimp only
    rw [List.drop_left, ih hnext]

/-! ## What is found besides white space -/

/-- No white space. -/
def Piece.isVisible (piece : Piece) : Bool := piece.kind != .whitespace

/-- The scanner reads the text through to the end of a script, and besides white space it finds the
given pieces. -/
def Reads (context : Context) (text : List Char) (found : List Piece) : Prop :=
  ∃ pieces, Scanned context pieces ∧ Piece.texts pieces = text ∧
    pieces.filter Piece.isVisible = found

namespace Reads

variable {context next : Context} {position : Nat} {c : Char} {stack : List Interpolation}
  {run tail text : List Char} {kind : TokenKind} {found : List Piece}

theorem nil : Reads .start [] [] := ⟨[], .nil, rfl, rfl⟩

/-- A step more in front. -/
theorem step (hstep : context.step position c (tail ++ text) = .ok ⟨kind, tail, next⟩)
    (h : Reads next text found) :
    Reads context (c :: tail ++ text)
      ([(⟨kind, c :: tail⟩ : Piece)].filter Piece.isVisible ++ found) := by
  obtain ⟨pieces, hpieces, rfl, rfl⟩ := h
  exact ⟨⟨kind, c :: tail⟩ :: pieces, .cons hstep hpieces, rfl,
    List.filter_append [⟨kind, c :: tail⟩] pieces⟩

theorem step_blank (position : Nat) (hc : Unicode.isBlank c = true)
    (htail : ∀ d ∈ tail, Unicode.isBlank d = true)
    (hstops : Stops Unicode.isBlank text) :
    Context.step ⟨.code, stack⟩ position c (tail ++ text) =
      .ok ⟨.whitespace, tail, ⟨.code, stack⟩⟩ := by
  show Context.codeStep _ position c (tail ++ text) = _
  rw [codeStep_eq, Lead.of_isBlank hc]
  dsimp only
  rw [hstops.takeWhile_append htail]
  rfl

/-- White space in front makes no difference: it becomes one with white space that is there. -/
theorem blanks (h : Reads ⟨.code, stack⟩ text found)
    (hrun : ∀ c ∈ run, Unicode.isBlank c = true) :
    Reads ⟨.code, stack⟩ (run ++ text) found := by
  cases run with
  | nil => exact h
  | cons c rest =>
    have hc := hrun c List.mem_cons_self
    have hrest : ∀ d ∈ rest, Unicode.isBlank d = true :=
      fun d hd => hrun d (List.mem_cons_of_mem _ hd)
    by_cases hstops : Stops Unicode.isBlank text
    · exact h.step (step_blank 0 hc hrest hstops)
    · obtain ⟨pieces, hpieces, rfl, rfl⟩ := h
      cases hpieces with
      | nil => exact absurd .nil hstops
      | @cons _ next position d tail kind later hstep hlater =>
        have hd : Unicode.isBlank d = true := by
          refine (Bool.not_eq_false _).mp fun hd => hstops (.cons hd)
        replace hstep : Context.codeStep ⟨.code, stack⟩ position d _ = _ := hstep
        rw [codeStep_eq, Lead.of_isBlank hd] at hstep
        obtain ⟨rfl, htail, rfl⟩ := Step.mk.inj (Except.ok.inj hstep)
        have hblanks : ∀ c ∈ rest ++ d :: tail, Unicode.isBlank c = true := by
          intro c hc
          rcases List.mem_append.mp hc with hc | hc
          · exact hrest c hc
          · rcases List.mem_cons.mp hc with rfl | hc
            · exact hd
            · exact List.all_eq_true.mp List.all_takeWhile c (htail ▸ hc)
        have hlast : Stops Unicode.isBlank (Piece.texts later) := Stops.of_takeWhile htail
        have hmerged : Reads ⟨.code, stack⟩ (Piece.texts later)
            (later.filter Piece.isVisible) := ⟨later, hlater, rfl, rfl⟩
        have hall := hmerged.step (step_blank 0 hc hblanks hlast)
        rw [show c :: rest ++ Piece.texts (⟨.whitespace, d :: tail⟩ :: later) =
          c :: (rest ++ d :: tail) ++ Piece.texts later by simp]
        exact hall

theorem step_word (position : Nat) (hstart : Identifier.isStart c = true)
    (htail : ∀ d ∈ tail, Identifier.isContinue d = true)
    (hstops : Stops Identifier.isContinue text) :
    Context.step ⟨.code, stack⟩ position c (tail ++ text) =
      .ok ⟨.identifier, tail, ⟨.code, stack⟩⟩ := by
  show Context.codeStep _ position c (tail ++ text) = _
  rw [codeStep_eq, Lead.of_isStart hstart]
  dsimp only
  rw [hstops.takeWhile_append htail]
  rfl

/-- A name in front of what does not continue it. -/
theorem word {word : List Char} (h : Reads ⟨.code, stack⟩ text found)
    (hword : Identifier.isName word = true) (hstops : Stops Identifier.isContinue text) :
    Reads ⟨.code, stack⟩ (word ++ text) (⟨.identifier, word⟩ :: found) := by
  cases word with
  | nil => exact absurd hword (by simp [Identifier.isName])
  | cons c tail =>
    obtain ⟨hstart, htail⟩ := Bool.and_eq_true_iff.mp hword
    exact h.step (step_word 0 hstart (List.all_eq_true.mp htail) hstops)

end Reads

/-! ## What is found besides trivia -/

/-- White space is trivia. -/
theorem Piece.filter_isVisible (pieces : List Piece) :
    (pieces.filter isVisible).filter isMeaningful = pieces.filter isMeaningful := by
  rw [List.filter_filter]
  refine List.filter_congr fun piece _ => ?_
  obtain ⟨kind, -⟩ := piece
  cases kind <;> rfl

/-- The scanner reads the text through to the end of a script, and besides trivia it finds the given
pieces. -/
def Rescans (context : Context) (text : List Char) (found : List Piece) : Prop :=
  ∃ pieces, Scanned context pieces ∧ Piece.texts pieces = text ∧
    pieces.filter Piece.isMeaningful = found

namespace Rescans

variable {context next : Context} {position : Nat} {c : Char} {stack : List Interpolation}
  {run part tail text : List Char} {kind : TokenKind} {found : List Piece}

theorem nil : Rescans .start [] [] := ⟨[], .nil, rfl, rfl⟩

theorem iff_reads : Rescans context text found ↔
    ∃ visible, Reads context text visible ∧ visible.filter Piece.isMeaningful = found := by
  constructor
  · rintro ⟨pieces, hpieces, htext, hfound⟩
    exact ⟨_, ⟨pieces, hpieces, htext, rfl⟩, (Piece.filter_isVisible pieces).trans hfound⟩
  · rintro ⟨visible, ⟨pieces, hpieces, htext, rfl⟩, hfound⟩
    exact ⟨pieces, hpieces, htext, (Piece.filter_isVisible pieces).symm.trans hfound⟩

/-- A step more in front. -/
theorem step (hstep : context.step position c (tail ++ text) = .ok ⟨kind, tail, next⟩)
    (h : Rescans next text found) :
    Rescans context (c :: tail ++ text)
      ([(⟨kind, c :: tail⟩ : Piece)].filter Piece.isMeaningful ++ found) := by
  obtain ⟨visible, hreads, rfl⟩ := iff_reads.mp h
  refine iff_reads.mpr ⟨_, hreads.step hstep, ?_⟩
  rw [List.filter_append, Piece.filter_isVisible]

theorem blanks (h : Rescans ⟨.code, stack⟩ text found)
    (hrun : ∀ c ∈ run, Unicode.isBlank c = true) :
    Rescans ⟨.code, stack⟩ (run ++ text) found := by
  obtain ⟨visible, hreads, hfound⟩ := iff_reads.mp h
  exact iff_reads.mpr ⟨visible, hreads.blanks hrun, hfound⟩

/-- A block comment in front makes no difference. -/
theorem block {body : List Char} (h : Rescans ⟨.code, stack⟩ text found)
    (hbody : Comment.block? body = some part) :
    Rescans ⟨.code, stack⟩ ('/' :: '*' :: part ++ text) found := by
  have hstep : Context.step ⟨.code, stack⟩ 0 '/' (('*' :: part) ++ text) =
      .ok ⟨if Comment.isDoc body then .docComment else .comment, '*' :: part, ⟨.code, stack⟩⟩ := by
    show Context.slashStep _ 0 ('*' :: (part ++ text)) = _
    rw [slashStep_star, Comment.block?_append hbody, Comment.isDoc_append hbody]
    rfl
  have hall := h.step hstep
  rw [List.filter_cons_of_neg] at hall
  · exact hall
  · unfold Piece.isMeaningful
    dsimp only
    split <;> simp [TokenKind.isTrivia]

/-- A line comment in front makes no difference if its line ends there. -/
theorem lineComment (h : Rescans ⟨.code, stack⟩ text found) (hpart : Unbroken part)
    (hstops : Stops (!RegExp.isLineBreak ·) text) :
    Rescans ⟨.code, stack⟩ ('/' :: '/' :: part ++ text) found := by
  have hstep : Context.step ⟨.code, stack⟩ 0 '/' (('/' :: part) ++ text) =
      .ok ⟨.comment, '/' :: part, ⟨.code, stack⟩⟩ := by
    show Context.slashStep _ 0 ('/' :: (part ++ text)) = _
    rw [slashStep_line, Comment.line_eq hpart hstops]
    rfl
  exact h.step hstep

theorem word {word : List Char} (h : Rescans ⟨.code, stack⟩ text found)
    (hword : Identifier.isName word = true) (hstops : Stops Identifier.isContinue text) :
    Rescans ⟨.code, stack⟩ (word ++ text) (⟨.identifier, word⟩ :: found) := by
  obtain ⟨visible, hreads, hfound⟩ := iff_reads.mp h
  refine iff_reads.mpr ⟨_, hreads.word hword hstops, ?_⟩
  rw [List.filter_cons_of_pos rfl, hfound]

end Rescans

/-! ## Gaps -/

/-- The text can stand before any program text without making a difference. -/
def Passable (text : List Char) : Prop :=
  ∀ stack later found, Rescans ⟨.code, stack⟩ later found →
    Rescans ⟨.code, stack⟩ (text ++ later) found

theorem Passable.nil : Passable [] := fun _ _ _ h => h

namespace Context

variable {context : Context} {position : Nat} {c : Char} {rest : List Char} {step : Step}

/-- White space and comments. -/
theorem trivia_cases (h : context.codeStep position c rest = .ok step)
    (htrivia : step.kind.isTrivia = true) :
    (Unicode.isBlank c = true ∧ step = context.plain .whitespace (rest.takeWhile Unicode.isBlank)) ∨
    (c = '/' ∧ ∃ later, rest = '/' :: later ∧
      step = context.plain .comment ('/' :: Comment.line later)) ∨
    (c = '/' ∧ ∃ body text kind, rest = '*' :: body ∧ Comment.block? body = some text ∧
      step = context.plain kind ('*' :: text)) := by
  cases taken_of_codeStep h with
  | blanks hc => exact .inl ⟨hc, rfl⟩
  | lineComment hc hrest => exact .inr (.inl ⟨hc, _, hrest, rfl⟩)
  | blockComment hc hrest _ htext => exact .inr (.inr ⟨hc, _, _, _, hrest, htext, rfl⟩)
  | _ => exact absurd htrivia (by simp [plain, TokenKind.isTrivia])

end Context

theorem isBlank_of_isLineBreak {c : Char} (h : RegExp.isLineBreak c = true) :
    Unicode.isBlank c = true := by
  rcases isLineBreak_cases h with rfl | rfl <;> decide

/-- A text that begins with a gap keeps its first character, whatever stands behind the gap. -/
theorem stops_of_gap {p : Char → Bool} {gap rest : List Piece}
    (hgap : ∀ piece ∈ gap, piece.text ≠ []) (hstops : Stops p (Piece.texts (gap ++ rest)))
    (hrest : ¬ Stops p (Piece.texts rest)) (later : List Char) :
    Stops p (Piece.texts gap ++ later) := by
  cases gap with
  | nil => exact absurd hstops hrest
  | cons first gap =>
    obtain ⟨kind, text⟩ := first
    cases text with
    | nil => exact absurd rfl (hgap _ List.mem_cons_self)
    | cons c tail => exact .cons (hstops c (tail ++ Piece.texts (gap ++ rest)) rfl)

namespace Scanned

variable {context : Context} {stack : List Interpolation} {pieces gap rest : List Piece}
  {piece : Piece}

theorem ne_nil (h : Scanned context pieces) : ∀ piece ∈ pieces, piece.text ≠ [] := by
  induction h with
  | nil => exact fun _ hmem => absurd hmem List.not_mem_nil
  | cons _ _ ih =>
    intro piece hmem
    rcases List.mem_cons.mp hmem with rfl | hmem
    · exact List.cons_ne_nil _ _
    · exact ih piece hmem

/-- A token that is no trivia does not begin with a blank. -/
theorem isBlank_of_head (h : Scanned ⟨.code, stack⟩ (piece :: rest))
    (hpiece : piece.kind.isTrivia = false) :
    ∃ c tail, piece.text = c :: tail ∧ Unicode.isBlank c = false := by
  cases h with
  | @cons _ next position c tail kind _ hstep _ =>
    replace hstep : Context.codeStep ⟨.code, stack⟩ position c _ = _ := hstep
    refine ⟨c, tail, rfl, Bool.eq_false_iff.mpr fun hc => ?_⟩
    rw [codeStep_eq, Lead.of_isBlank hc] at hstep
    obtain ⟨rfl, -, -⟩ := Step.mk.inj (Except.ok.inj hstep)
    exact absurd hpiece (by simp [TokenKind.isTrivia])

/-- The trivia in front of a token is passable, and the token is read in the same context. -/
theorem passable (h : Scanned ⟨.code, stack⟩ (gap ++ piece :: rest))
    (hgap : ∀ other ∈ gap, other.kind.isTrivia = true) (hpiece : piece.kind.isTrivia = false) :
    Passable (Piece.texts gap) ∧ Scanned ⟨.code, stack⟩ (piece :: rest) := by
  induction gap with
  | nil => exact ⟨.nil, h⟩
  | cons first gap ih =>
    have hfirst := hgap first List.mem_cons_self
    cases h with
    | @cons _ next position c tail kind _ hstep hlater =>
      replace hstep : Context.codeStep ⟨.code, stack⟩ position c _ = _ := hstep
      have hothers : ∀ other ∈ gap, other.kind.isTrivia = true :=
        fun other hmem => hgap other (List.mem_cons_of_mem _ hmem)
      rcases trivia_cases hstep hfirst with ⟨hc, heq⟩ | ⟨rfl, line, htail, heq⟩ |
        ⟨rfl, body, text, kind', htail, hblock, heq⟩
      · obtain ⟨rfl, htail, rfl⟩ := Step.mk.inj heq
        obtain ⟨hpassable, hrest⟩ := ih hlater hothers
        refine ⟨fun stack' later found hfound => ?_, hrest⟩
        have hblanks : ∀ d ∈ c :: tail, Unicode.isBlank d = true := by
          intro d hd
          rcases List.mem_cons.mp hd with rfl | hd
          · exact hc
          · exact List.all_eq_true.mp List.all_takeWhile d (htail ▸ hd)
        rw [Piece.texts_cons, List.append_assoc]
        exact (hpassable stack' later found hfound).blanks hblanks
      · obtain ⟨rfl, rfl, rfl⟩ := Step.mk.inj heq
        obtain ⟨hpassable, hrest⟩ := ih hlater hothers
        have hline : line = Comment.line line ++ Piece.texts (gap ++ piece :: rest) :=
          (List.cons.inj htail).2.symm
        obtain ⟨hunbroken, hstops⟩ := Comment.stops_of_line_eq hline
        refine ⟨fun stack' later found hfound => ?_, hrest⟩
        -- the line break that ends the comment belongs to the gap
        have hmeans : ¬ Stops (!RegExp.isLineBreak ·) (Piece.texts (piece :: rest)) := by
          obtain ⟨c, tail, htext, hc⟩ := hrest.isBlank_of_head hpiece
          intro hnot
          have hbreak := hnot c (tail ++ Piece.texts rest) (by rw [Piece.texts_cons, htext]; rfl)
          rw [isBlank_of_isLineBreak (by simpa using hbreak)] at hc
          exact absurd hc (by simp)
        have hends := stops_of_gap (fun other hmem => hlater.ne_nil other
          (List.mem_append_left _ hmem)) hstops hmeans later
        rw [Piece.texts_cons, List.append_assoc]
        exact (hpassable stack' later found hfound).lineComment hunbroken hends
      · obtain ⟨rfl, rfl, rfl⟩ := Step.mk.inj heq
        obtain ⟨hpassable, hrest⟩ := ih hlater hothers
        refine ⟨fun stack' later found hfound => ?_, hrest⟩
        rw [Piece.texts_cons, List.append_assoc]
        exact (hpassable stack' later found hfound).block hblock

end Scanned

/-! ## What the pass writes -/

namespace Rescans

variable {stack : List Interpolation} {text : List Char} {found : List Piece}

/-- A name with the mark behind it. -/
theorem marked {name : List Char} (h : Rescans ⟨.code, stack⟩ text found)
    (hname : Identifier.isName name = true) :
    Rescans ⟨.code, stack⟩ (name ++ " /* exported */".toList ++ text)
      (⟨.identifier, name⟩ :: found) := by
  have hmark : Rescans ⟨.code, stack⟩ ("/* exported */".toList ++ text) found :=
    h.block (rfl : Comment.block? " exported */".toList = some _)
  have hgap : Rescans ⟨.code, stack⟩ (" /* exported */".toList ++ text) found :=
    hmark.blanks (by decide : ∀ c ∈ [' '], Unicode.isBlank c = true)
  rw [List.append_assoc]
  exact hgap.word hname (.cons (by decide))

/-- The assignment to the default member, up to its target. -/
theorem assigned (h : Rescans ⟨.code, stack⟩ text found) :
    Rescans ⟨.code, stack⟩ ("exports.default = ".toList ++ text)
      (⟨.identifier, "exports".toList⟩ :: ⟨.delimiter, ['.']⟩ ::
        ⟨.identifier, "default".toList⟩ :: ⟨.operator, ['=']⟩ :: found) := by
  have hblank : ∀ c ∈ [' '], Unicode.isBlank c = true := by decide
  have htarget : Rescans ⟨.code, stack⟩ (" ".toList ++ text) found := h.blanks hblank
  have hequals : Rescans ⟨.code, stack⟩ ("= ".toList ++ text) (⟨.operator, ['=']⟩ :: found) :=
    htarget.step (rfl : Context.step ⟨.code, stack⟩ 0 '=' ([] ++ _) = .ok ⟨.operator, [], _⟩)
  have hgap : Rescans ⟨.code, stack⟩ (" = ".toList ++ text) (⟨.operator, ['=']⟩ :: found) :=
    hequals.blanks hblank
  have hmember : Rescans ⟨.code, stack⟩ ("default = ".toList ++ text)
      (⟨.identifier, "default".toList⟩ :: ⟨.operator, ['=']⟩ :: found) :=
    hgap.word (by decide : Identifier.isName "default".toList = true) (.cons (by decide))
  have hdot : Rescans ⟨.code, stack⟩ (".default = ".toList ++ text)
      (⟨.delimiter, ['.']⟩ :: ⟨.identifier, "default".toList⟩ :: ⟨.operator, ['=']⟩ :: found) :=
    hmember.step (rfl : Context.step ⟨.code, stack⟩ 0 '.' ([] ++ _) = .ok ⟨.delimiter, [], _⟩)
  exact hdot.word (by decide : Identifier.isName "exports".toList = true) (.cons (by decide))

end Rescans

end ScriptLink
