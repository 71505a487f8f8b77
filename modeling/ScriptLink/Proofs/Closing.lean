import ScriptLink.Console.Completeness
import ScriptLink.Proofs.Joining
import ScriptLink.Proofs.OpenLiteral
import ScriptLink.Proofs.Rescan

/-!
# Closing what is open

A script that breaks off inside a template or a comment is the beginning of one that is taken apart:
on further lines stand the mark that is missing and, for every interpolation that is open, the
braces it counts and the back-tick of the literal around it. The line break in front of them
matters. Put right behind the text, a closing mark can make a regular expression of a slash that was
none.

* **`closers`**, **`Context.completes_closers`** — what closes the interpolations that are open, by
  induction on the stack.
* **`Template.segment?_closed`**, **`Comment.block?_closed`** — the matchers find the end that was
  missing.
* **`Context.Breaks.exists_closing`** — for each way to break off, the lines that are missing.
* **`Context.Comes.completes`** — the steps of a scan are taken again, with the lines behind them.
* **`unterminated_literal_can_be_closed`** — the law.
-/

namespace ScriptLink

open Context

/-! ## The missing ends -/

/-- The braces that the interpolation counts, and the end of the literal around it. -/
def Interpolation.closer (interpolation : Interpolation) : List Char :=
  List.replicate interpolation.depth '\x7d' ++ ['\x60']

/-- What closes interpolations, innermost first. -/
def closers (stack : List Interpolation) : List Char := stack.flatMap Interpolation.closer

theorem closers_cons (top : Interpolation) (outer : List Interpolation) :
    closers (top :: outer) = List.replicate top.depth '\x7d' ++ '\x60' :: closers outer := by
  show List.replicate top.depth '\x7d' ++ ['\x60'] ++ closers outer = _
  rw [List.append_assoc]
  rfl

/-- Template text that goes on to the end ends with the back-tick on the next line. A backslash at
the end takes the line break along, a dollar sign there opens nothing. -/
theorem Template.segment?_closed {s : List Char} (h : segment? s = none) (t : List Char) :
    segment? (s ++ '\n' :: '\x60' :: t) = some ⟨s ++ ['\n', '\x60'], true⟩ := by
  fun_induction segment? s with
  | case1 => rfl
  | case2 => rfl
  | case3 c rest ih =>
    show (segment? (rest ++ '\n' :: '\x60' :: t)).map _ = _
    rw [ih (Option.map_eq_none_iff.mp h)]
    rfl
  | case4 => exact absurd h (by simp)
  | case5 => exact absurd h (by simp)
  | case6 c rest hend hslash htick hopener ih =>
    rw [List.cons_append, segment?_cons (RegExp.ne_backslash hend hslash) htick,
      ih (Option.map_eq_none_iff.mp h)]
    · rfl
    · -- a dollar sign at the end has a line feed behind it, not a brace
      rintro later rfl hbrace
      cases rest with
      | nil => exact absurd (List.cons.inj hbrace).1 (by decide)
      | cons d more =>
        obtain ⟨rfl, -⟩ := List.cons.inj hbrace
        exact hopener more rfl rfl

namespace Comment

theorem throughClose?_closed {s : List Char} (h : throughClose? s = none) (t : List Char) :
    throughClose? (s ++ '\n' :: '*' :: '/' :: t) = some (s ++ ['\n', '*', '/']) := by
  fun_induction throughClose? s with
  | case1 => rfl
  | case2 => exact absurd h (by simp)
  | case3 c rest hclose ih =>
    -- an asterisk at the end has a line feed behind it, not a slash
    have hmore : ∀ later, c = '*' → rest ++ '\n' :: '*' :: '/' :: t = '/' :: later → False := by
      intro later hc heq
      cases rest with
      | nil => exact absurd (List.cons.inj heq).1 (by decide)
      | cons d more =>
        obtain ⟨rfl, -⟩ := List.cons.inj heq
        exact hclose more hc rfl
    rw [List.cons_append, throughClose?, ih (Option.map_eq_none_iff.mp h)]
    · rfl
    · exact hmore

/-- A line break behind the text makes no other kind of comment of it. -/
theorem isDoc_lineFeed (body t : List Char) : isDoc (body ++ '\n' :: t) = isDoc body := by
  match body with
  | [] => rfl
  | [c] =>
    by_cases hc : c = '*'
    · subst hc
      rfl
    · have hnot (rest : List Char) : isDoc (c :: rest) = false := by
        refine Bool.eq_false_iff.mpr fun hdoc => hc ?_
        obtain ⟨later, heq, -⟩ := isDoc_iff.mp hdoc
        exact (List.cons.inj heq).1
      exact (hnot _).trans (hnot _).symm
  | c :: d :: more =>
    rw [Bool.eq_iff_iff, isDoc_iff, isDoc_iff]
    constructor
    · rintro ⟨rest, heq, hslash⟩
      obtain ⟨rfl, rfl⟩ := List.cons.inj heq
      exact ⟨d :: more, rfl, fun later hlater => hslash _ (by rw [hlater]; rfl)⟩
    · rintro ⟨rest, heq, hslash⟩
      obtain ⟨rfl, rfl⟩ := List.cons.inj heq
      refine ⟨d :: more ++ '\n' :: t, rfl, fun later hlater => ?_⟩
      obtain ⟨rfl, -⟩ := List.cons.inj hlater
      exact hslash more rfl

/-- A comment that goes on to the end ends with the mark on the next line. -/
theorem block?_closed {body : List Char} (h : block? body = none) (t : List Char) :
    block? (body ++ '\n' :: '*' :: '/' :: t) = some (body ++ ['\n', '*', '/']) := by
  unfold block? at h ⊢
  rw [isDoc_lineFeed]
  split at h
  · next hdoc =>
    have hbody := cons_of_isDoc hdoc
    rw [hbody] at hdoc ⊢
    rw [if_pos hdoc]
    show (throughClose? (body.drop 1 ++ '\n' :: '*' :: '/' :: t)).map _ = _
    rw [throughClose?_closed (Option.map_eq_none_iff.mp h)]
    rfl
  · next hdoc =>
    rw [if_neg hdoc]
    exact throughClose?_closed h t

end Comment

namespace Context

variable {source : String} {context next : Context} {position opened : Nat} {c : Char}
  {rest tail text : List Char} {kind : TokenKind} {stack outer : List Interpolation}
  {error : Unterminated} {step : Step}

/-- The text takes a script to its end that was read up to the context. -/
def Completes (context : Context) (text : List Char) : Prop := ∃ found, Reads context text found

namespace Completes

theorem of_step (hstep : context.step position c rest = .ok step) (hrest : rest = step.tail ++ text)
    (h : step.next.Completes text) : context.Completes (c :: rest) := by
  obtain ⟨found, hfound⟩ := h
  subst hrest
  exact ⟨_, hfound.step hstep⟩

theorem blanks (h : Completes ⟨.code, stack⟩ text) {run : List Char}
    (hrun : ∀ c ∈ run, Unicode.isBlank c = true) : Completes ⟨.code, stack⟩ (run ++ text) := by
  obtain ⟨found, hfound⟩ := h
  exact ⟨found, hfound.blanks hrun⟩

/-- Behind the last segment of a literal the text of the script goes on. -/
theorem segment (hsegment : Template.segment? (c :: rest) = some ⟨c :: tail, true⟩)
    (hrest : rest = tail ++ text) (h : Completes ⟨.code, stack⟩ text) (opened : Nat) :
    Completes ⟨.template opened, stack⟩ (c :: rest) := by
  have hstep : Context.step ⟨.template opened, stack⟩ 0 c rest =
      .ok ⟨.template, tail, ⟨.code, stack⟩⟩ := by
    show templateStep _ opened c rest = _
    unfold templateStep
    rw [hsegment]
    rfl
  exact of_step hstep hrest h

theorem tick (h : Completes ⟨.code, stack⟩ text) (opened : Nat) :
    Completes ⟨.template opened, stack⟩ ('\x60' :: text) := by
  have hsegment : Template.segment? ('\x60' :: text) = some ⟨['\x60'], true⟩ := rfl
  exact segment hsegment rfl h opened

theorem brace (h : (closeBrace ⟨.code, stack⟩).Completes text) :
    Completes ⟨.code, stack⟩ ('\x7d' :: text) := by
  have hstep : Context.step ⟨.code, stack⟩ 0 '\x7d' text =
      .ok ⟨.bracket, [], closeBrace ⟨.code, stack⟩⟩ := rfl
  exact of_step hstep rfl h

/-- The braces that an interpolation counts, and the back-tick. By induction on the count; the last
brace leads back into the literal. -/
theorem closer (h : Completes ⟨.code, outer⟩ text) (opened depth : Nat) :
    Completes ⟨.code, ⟨depth + 1, opened⟩ :: outer⟩
      (List.replicate (depth + 1) '\x7d' ++ '\x60' :: text) := by
  induction depth with
  | zero => exact brace (h.tick opened)
  | succ depth ih => exact brace ih

end Completes

/-- **What closes interpolations takes the script to its end.** -/
theorem completes_closers (stack : List Interpolation)
    (hcounts : ∀ interpolation ∈ stack, 1 ≤ interpolation.depth) :
    Completes ⟨.code, stack⟩ (closers stack) := by
  induction stack with
  | nil => exact ⟨_, .nil⟩
  | cons top outer ih =>
    obtain ⟨depth, opened⟩ := top
    obtain ⟨depth, rfl⟩ : ∃ fewer, depth = fewer + 1 := by
      have hdepth : 1 ≤ depth := hcounts ⟨depth, opened⟩ List.mem_cons_self
      exact ⟨depth - 1, by omega⟩
    rw [closers_cons]
    exact (ih fun other hmem => hcounts other (List.mem_cons_of_mem _ hmem)).closer opened depth

/-! ## Every way to break off can be closed -/

/-- A template that begins in the last piece, with the back-tick on the next line. -/
theorem step_tick_closed (hsegment : Template.segment? rest = none) (position : Nat)
    (t : List Char) :
    Context.step ⟨.code, stack⟩ position '\x60' (rest ++ '\n' :: '\x60' :: t) =
      .ok ⟨.template, rest ++ ['\n', '\x60'], ⟨.code, stack⟩⟩ := by
  show codeStep ⟨.code, stack⟩ position '\x60' _ = _
  rw [codeStep_eq, show Lead.of '\x60' = .tick by decide]
  dsimp only
  rw [Template.segment?_closed hsegment]
  rfl

/-- A comment, with its mark on the next line. -/
theorem step_comment_closed {body : List Char} (hblock : Comment.block? body = none)
    (position : Nat) (t : List Char) :
    Context.step ⟨.code, stack⟩ position '/' ('*' :: body ++ '\n' :: '*' :: '/' :: t) =
      .ok ⟨if Comment.isDoc body then .docComment else .comment, '*' :: body ++ ['\n', '*', '/'],
        ⟨.code, stack⟩⟩ := by
  show codeStep ⟨.code, stack⟩ position '/' _ = _
  rw [codeStep_eq, show Lead.of '/' = .slash by decide]
  dsimp only
  rw [List.cons_append, slashStep_star, Comment.block?_closed hblock, Comment.isDoc_lineFeed]
  rfl

/-- **For every way to break off but one there are lines that are missing.** They take the script to
its end; and the literal is a template whose back-tick was a step of the scan already, or the step
that failed takes it now. -/
theorem Breaks.exists_closing (h : Breaks context position rest error)
    (hcounts : CountsBraces context) (hstring : error.literal ≠ .string) :
    ∃ t, context.Completes (rest ++ '\n' :: t) ∧
      ((error.literal = .template ∧ error.offset ∈ context.openings) ∨
        ∃ c more step, rest = c :: more ∧ error.offset = position ∧
          context.step position c (more ++ '\n' :: t) = .ok step ∧
          step.kind = error.literal.tokenKind) := by
  obtain ⟨mode, stack⟩ := context
  have hend : Completes ⟨.code, stack⟩ (closers stack) := completes_closers stack hcounts
  -- in every case the stack is closed last, behind what closes the innermost literal
  cases h with
  | inside hcode hopen =>
    obtain rfl : mode = .code := hcode
    obtain rfl := hopen
    have hbreak : ∀ c ∈ ['\n'], Unicode.isBlank c = true := by decide
    exact ⟨_, hend.blanks hbreak, .inl ⟨rfl, List.mem_cons_self⟩⟩
  | @segment opened _ htemplate hsegment =>
    obtain rfl : mode = .template opened := htemplate
    refine ⟨'\x60' :: closers stack, ?_, .inl ⟨rfl, List.mem_cons_self⟩⟩
    have hclosed := Template.segment?_closed hsegment (closers stack)
    cases rest with
    | nil => exact Completes.segment hclosed rfl hend opened
    | cons c more => exact Completes.segment hclosed (by simp) hend opened
  | @tick later hcode hsegment =>
    obtain rfl : mode = .code := hcode
    have hstep : Context.step ⟨.code, stack⟩ position _ _ = _ :=
      step_tick_closed hsegment position (closers stack)
    refine ⟨'\x60' :: closers stack, ?_, .inr ⟨_, later, _, rfl, rfl, hstep, rfl⟩⟩
    exact Completes.of_step hstep (by simp) hend
  | @comment body hcode hblock =>
    obtain rfl : mode = .code := hcode
    have hstep : Context.step ⟨.code, stack⟩ position _ _ = _ :=
      step_comment_closed hblock position (closers stack)
    refine ⟨'*' :: '/' :: closers stack, ?_, .inr ⟨_, _, _, rfl, rfl, hstep, ?_⟩⟩
    · exact Completes.of_step hstep (by simp) hend
    · dsimp only
      split <;> rfl
  | quote hcode hquote hbody => exact absurd rfl hstring

/-! ## The scan again -/

/-- The steps of a scan are taken again when a line feed and more stand behind the script. White
space at its end is not reached, since it would leave nothing. -/
theorem Comes.lineFeed {closed : String} {t : List Char}
    (hclosed : closed.toList = source.toList ++ '\n' :: t) (h : Comes source context position rest)
    (hne : rest ≠ []) : Comes closed context position (rest ++ '\n' :: t) := by
  induction h with
  | start =>
    rw [← hclosed]
    exact .start
  | @step context position c rest step hcomes hstep ih =>
    obtain ⟨old, rfl⟩ := prefix_of_step hstep
    rw [List.drop_left] at hne ⊢
    -- what the step leaves is not empty, so it does not end where the script does
    have hblank : step.kind = .whitespace → step.tail ≠ step.tail ++ old :=
      fun _ hall => hne (by simpa using hall)
    have hagain := step_lineBreak (b := '\n') (by decide) t hstep hblank
    have hbehind := ih (List.cons_ne_nil _ _)
    rw [List.cons_append, List.append_assoc] at hbehind
    rw [List.append_assoc] at hagain
    have hnext := hbehind.step hagain
    rw [List.drop_left] at hnext
    exact hnext

/-- White space is taken in program text, and leaves the context alone. -/
theorem blank_of_step (h : context.step position c rest = .ok step)
    (hkind : step.kind = .whitespace) :
    context.mode = .code ∧ step.next = context ∧
      ∀ d ∈ c :: step.tail, Unicode.isBlank d = true := by
  have hblank := (fits_of_step h).2
  rw [hkind] at hblank
  unfold Context.step at h
  split at h
  · next hcode =>
    rcases codeStep_cases h with ⟨-, rfl⟩ | ⟨-, rfl⟩ | ⟨-, segment, -, rfl⟩ |
      ⟨-, -, -, kind, tail, -, rfl⟩
    · exact absurd hkind (by simp)
    · exact absurd hkind (by simp)
    · exact absurd hkind (by simp)
    · exact ⟨hcode, rfl, hblank⟩
  · rcases templateStep_cases h with ⟨later, -, rfl⟩ | ⟨tail, closes, -, rfl⟩ <;>
      exact absurd hkind (by simp)

/-- **Lines that complete the rest of a script complete the script.** By induction on the steps that
were taken, from the last one to the first. -/
theorem Comes.completes {t : List Char} (h : Comes source context position rest)
    (hrest : context.Completes (rest ++ '\n' :: t)) :
    Context.start.Completes (source.toList ++ '\n' :: t) := by
  induction h with
  | start => exact hrest
  | @step context position c rest step hcomes hstep ih =>
    obtain ⟨old, rfl⟩ := prefix_of_step hstep
    rw [List.drop_left] at hrest
    apply ih
    rw [List.cons_append, List.append_assoc]
    by_cases hall : step.kind = .whitespace ∧ old = []
    · -- white space up to the end becomes one with the line feed
      obtain ⟨hkind, rfl⟩ := hall
      obtain ⟨hcode, hnext, hblank⟩ := blank_of_step hstep hkind
      obtain ⟨mode, stack⟩ := context
      obtain rfl : mode = .code := hcode
      rw [hnext] at hrest
      exact hrest.blanks hblank
    · have hmore : step.kind = .whitespace → step.tail ≠ step.tail ++ old :=
        fun hkind heq => hall ⟨hkind, by simpa using heq⟩
      have hagain := step_lineBreak (b := '\n') (by decide) t hstep hmore
      rw [List.append_assoc] at hagain
      exact Completes.of_step hagain rfl hrest

/-- The scan goes on from every place that it comes to, and the marks from there on are marks. -/
theorem Comes.exists_marks {found : List Piece} (h : Comes source context position text)
    (hfound : pieces source = .ok found) :
    ∃ later, context.scan position text = .ok later ∧
      Piece.locate position later ⊆ Piece.locate 0 found := by
  induction h with
  | start => exact ⟨found, hfound, fun _ hmem => hmem⟩
  | step hcomes hstep ih =>
    obtain ⟨_, hscan, hmarks⟩ := ih
    obtain ⟨old, rfl⟩ := prefix_of_step hstep
    rw [scan_of_step hstep] at hscan
    obtain ⟨later, hlater, rfl⟩ := exists_of_map_eq_ok hscan
    rw [List.drop_left]
    exact ⟨later, hlater, fun _ hmem => hmarks (List.mem_cons_of_mem _ hmem)⟩

/-- A step of the scan is a token. -/
theorem Comes.mem_marks {found : List Piece} (h : Comes source context position (c :: rest))
    (hstep : context.step position c rest = .ok step) (hfound : pieces source = .ok found) :
    ⟨step.kind, position, position + byteLength (c :: step.tail)⟩ ∈ Piece.locate 0 found := by
  obtain ⟨_, hscan, hmarks⟩ := h.exists_marks hfound
  obtain ⟨old, rfl⟩ := prefix_of_step hstep
  rw [scan_of_step hstep] at hscan
  obtain ⟨later, -, rfl⟩ := exists_of_map_eq_ok hscan
  exact hmarks List.mem_cons_self

end Context

/-! ## The law -/

/-- A mark of a script is the kind and the span of a token. -/
theorem exists_token_of_mark {source : String} {found : List Piece} {mark : Mark}
    (hmark : mark ∈ Piece.locate 0 found) :
    ∃ token ∈ (TokenStream.ofMarks source (Piece.locate 0 found)).tokens.toList,
      token.kind = mark.kind ∧ token.span = mark.span := by
  rw [← TokenStream.marks_ofMarks source (Piece.locate 0 found)] at hmark
  obtain ⟨token, hmem, rfl⟩ := List.mem_map.mp hmark
  exact ⟨token, hmem, rfl, rfl⟩

/-- **The lines that are missing** behind a script that breaks off in a template or a comment. With
them it is taken apart, and the literal is the token that begins where the error was reported. -/
theorem exists_lines_of_error {source : String} {error : Unterminated}
    (h : tokenize source = .error error) (hstring : error.literal ≠ .string) :
    ∃ lines stream, tokenize (source ++ "\n" ++ lines) = .ok stream ∧
      ∃ token ∈ stream.tokens.toList, token.kind = error.literal.tokenKind ∧
        token.span.start = error.offset := by
  obtain ⟨context, position, rest, hcomes, hbreaks⟩ := exists_breaks_of_tokenize h
  obtain ⟨t, hrest, hbegun⟩ := hbreaks.exists_closing hcomes.countsBraces hstring
  have htext : (source ++ "\n" ++ String.ofList t).toList = source.toList ++ '\n' :: t := by
    rw [String.toList_append, String.toList_append, List.append_assoc]
    show source.toList ++ '\n' :: (String.ofList t).toList = _
    rw [String.toList_ofList]
  generalize hclosed : source ++ "\n" ++ String.ofList t = closed at htext
  obtain ⟨_, found, hscanned, htexts, -⟩ := hcomes.completes hrest
  have hfound : pieces closed = .ok found := by
    unfold pieces
    rw [htext, ← htexts]
    exact hscanned.scan (.refl _) 0
  have hmark : ∃ mark ∈ Piece.locate 0 found,
      mark.kind = error.literal.tokenKind ∧ mark.span.start = error.offset := by
    rcases hbegun with ⟨hkind, hmem⟩ | ⟨c, more, step, rfl, hplace, hstep, hkind⟩
    · -- the step that took the back-tick of the template is taken again
      obtain ⟨earlier, later, step, hearlier, hstep, htemplate⟩ := hcomes.opened hmem
      have hblank : step.kind = .whitespace → step.tail ≠ later :=
        fun hwhite => absurd (htemplate.symm.trans hwhite) (by simp)
      have hagain := step_lineBreak (b := '\n') (by decide) t hstep hblank
      have hbefore := hearlier.lineFeed htext (List.cons_ne_nil _ _)
      rw [hkind]
      exact ⟨_, hbefore.mem_marks hagain hfound, htemplate, rfl⟩
    · have hbefore := hcomes.lineFeed htext (List.cons_ne_nil _ _)
      exact ⟨_, hbefore.mem_marks hstep hfound, hkind, hplace.symm⟩
  obtain ⟨mark, hmem, hkind, hstart⟩ := hmark
  have hstream := tokenize_of_pieces hfound
  obtain ⟨token, htoken, hsame, hspan⟩ := exists_token_of_mark hmem
  exact ⟨String.ofList t, _, hclosed ▸ hstream, token, htoken, hsame.trans hkind, hspan ▸ hstart⟩

/-- **A literal that is left open can be closed, unless it is a string.** If a script is refused for
a literal, the literal begins at the place that is reported, and a string has no closing quote
before the end of its line. A template or a comment can be closed: with some more lines the script
is taken apart, and the literal is a token that begins at that place. Exactly then it is a reason
for the console to ask for more lines, which it does unless the input is a command. -/
theorem unterminated_literal_can_be_closed {source : String} {error : Unterminated}
    (h : tokenize source = .error error) :
    (∃ before after, source.toList = before ++ after ∧ error.offset = byteLength before ∧
      error.literal.Begins after ∧ (error.literal = .string → Quoted.IsOpen after)) ∧
    (error.literal ≠ .string → ∃ lines stream, tokenize (source ++ "\n" ++ lines) = .ok stream ∧
      ∃ token ∈ stream.tokens.toList, token.kind = error.literal.tokenKind ∧
        token.span.start = error.offset) ∧
    (Console.isInsideLiteral source = true ↔ error.literal ≠ .string) ∧
    (error.literal ≠ .string → (source.toList.dropWhile Unicode.isBlank).head? ≠ some '.' →
      Console.isComplete source = false) := by
  have hasks : Console.isInsideLiteral source = true ↔ error.literal ≠ .string := by
    unfold Console.isInsideLiteral
    rw [h]
    exact bne_iff_ne
  refine ⟨begins_of_error h, exists_lines_of_error h, hasks, fun hstring hcommand => ?_⟩
  have hinside := hasks.mpr hstring
  simp [Console.isComplete, hinside, hcommand]

/-- Two braces are open in an interpolation when the text ends; on another line they are closed. -/
theorem interpolation_can_be_closed :
    let source := "x = \x60a$\x7b\x7b"
    tokenize source = .error ⟨.template, 4⟩ ∧ Console.isInsideLiteral source = true ∧
      Console.isComplete source = false ∧
      ∃ lines stream, tokenize (source ++ "\n" ++ lines) = .ok stream ∧
        ∃ token ∈ stream.tokens.toList, token.kind = .template ∧ token.span.start = 4 := by
  intro source
  have herror : tokenize source = .error ⟨.template, 4⟩ :=
    eq_error_of_casesOn (by decide +kernel)
  obtain ⟨-, hclosed, hasks, hunfinished⟩ := unterminated_literal_can_be_closed herror
  exact ⟨herror, hasks.mpr (by decide), hunfinished (by decide) (by decide +kernel),
    hclosed (by decide)⟩

end ScriptLink
