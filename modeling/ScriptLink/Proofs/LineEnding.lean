import ScriptLink.Proofs.StringLiteral
import ScriptLink.Proofs.WrapperText

/-!
# Lines that end in a carriage return and a line feed

The same script can have its lines end in a line feed or in a carriage return and a line feed. Most
matchers stop before a line break of either kind, so that they cannot tell what comes behind it
(`crlf_congr`). White space, comments and template text go on across it and take both characters.
A quoted string goes on across a line break behind a backslash, but takes one character along, and
the line feed ends the search for the closing quote.

* **`crlf`** — the text with a carriage return in front of each line feed.
* **`Context.step_crlf`** — a step takes the same piece, unless that is a string with a line feed.
  `Context.step_string_crlf`: then it fails.
* **`Scanned.crlf`**, **`Scanned.scan_crlf`** — the two run through a script.
* **`tokenize_crlf`** — a script has the same tokens with either line ending, except for such
  strings.
-/

namespace ScriptLink

open RegExp

/-- The text with a carriage return in front of each line feed. -/
def crlf (s : List Char) : List Char := s.flatMap fun c => if c = '\n' then ['\r', '\n'] else [c]

/-- A piece with the other line ending. -/
def Piece.crlf (piece : Piece) : Piece := ⟨piece.kind, ScriptLink.crlf piece.text⟩

section

variable {c : Char} {s t : List Char} {p : Char → Bool}

@[simp] theorem crlf_nil : crlf [] = [] := rfl

@[simp] theorem crlf_lineFeed (s : List Char) : crlf ('\n' :: s) = '\r' :: '\n' :: crlf s := rfl

theorem crlf_cons (hc : c ≠ '\n') (s : List Char) : crlf (c :: s) = c :: crlf s := by
  unfold crlf
  rw [List.flatMap_cons, if_neg hc]
  rfl

@[simp] theorem crlf_append (s t : List Char) : crlf (s ++ t) = crlf s ++ crlf t :=
  List.flatMap_append

theorem crlf_eq_self (h : '\n' ∉ s) : crlf s = s := by
  induction s with
  | nil => rfl
  | cons c s ih =>
    rw [crlf_cons fun hc => h (hc ▸ List.mem_cons_self), ih fun hs => h (List.mem_cons_of_mem _ hs)]

theorem Unbroken.crlf_eq (h : Unbroken s) : crlf s = s :=
  crlf_eq_self fun hs => absurd (h '\n' hs) (by decide)

/-- A text that begins with a character of its own begins with it still. -/
theorem head_crlf (hc : c ≠ '\n' ∧ c ≠ '\r') {later : List Char} (h : crlf s = c :: later) :
    ∃ rest, s = c :: rest ∧ later = crlf rest := by
  cases s with
  | nil => exact absurd h (by simp)
  | cons d rest =>
    by_cases hd : d = '\n'
    · subst hd
      exact absurd (List.cons.inj h).1.symm hc.2
    · rw [crlf_cons hd] at h
      obtain ⟨rfl, rfl⟩ := List.cons.inj h
      exact ⟨rest, rfl, rfl⟩

/-- What does not look behind a line break cannot tell the line endings apart. -/
theorem crlf_congr {α : Type} (view : List Char → α)
    (hview : ∀ b, isLineBreak b = true → ∀ s t, view (s ++ b :: t) = view s) (s : List Char) :
    view (crlf s) = view s := by
  by_cases hfeed : '\n' ∈ s
  · -- both texts have a line break behind the first line
    obtain ⟨line, rest, rfl, hline⟩ := List.eq_append_cons_of_mem hfeed
    rw [crlf_append, crlf_eq_self hline, crlf_lineFeed, hview '\r' rfl, hview '\n' rfl]
  · rw [crlf_eq_self hfeed]

/-- A class with both line breaks takes both of them. -/
theorem takeWhile_crlf (hp : p '\n' = true ∧ p '\r' = true) (s : List Char) :
    (crlf s).takeWhile p = crlf (s.takeWhile p) := by
  induction s with
  | nil => rfl
  | cons c rest ih =>
    by_cases hc : c = '\n'
    · subst hc
      rw [crlf_lineFeed, List.takeWhile_cons_of_pos hp.2, List.takeWhile_cons_of_pos hp.1,
        List.takeWhile_cons_of_pos hp.1, ih, crlf_lineFeed]
    · rw [crlf_cons hc]
      by_cases hclass : p c = true
      · rw [List.takeWhile_cons_of_pos hclass, List.takeWhile_cons_of_pos hclass, ih, crlf_cons hc]
      · rw [List.takeWhile_cons_of_neg hclass, List.takeWhile_cons_of_neg hclass]
        rfl

end

/-! ## Matchers that go on across a line break -/

namespace Comment

theorem throughClose?_cons {c : Char} {rest : List Char}
    (hclose : ∀ later, c = '*' → rest ≠ '/' :: later) :
    throughClose? (c :: rest) = (throughClose? rest).map (c :: ·) := by
  rw [throughClose?]
  exact hclose

theorem throughClose?_crlf (s : List Char) :
    throughClose? (crlf s) = (throughClose? s).map crlf := by
  fun_induction throughClose? s with
  | case1 => rfl
  | case2 rest => rfl
  | case3 c rest hclose ih =>
    by_cases hc : c = '\n'
    · subst hc
      rw [crlf_lineFeed, throughClose?_cons fun _ h => absurd h (by decide),
        throughClose?_cons fun _ h => absurd h (by decide), ih]
      cases throughClose? rest <;> rfl
    · rw [crlf_cons hc, throughClose?_cons, ih]
      · cases throughClose? rest with
        | none => rfl
        | some text => exact congrArg some (crlf_cons hc text).symm
      · intro later hstar hslash
        obtain ⟨tail, rfl, -⟩ := head_crlf ⟨by decide, by decide⟩ hslash
        exact hclose tail hstar rfl

theorem isDoc_crlf (s : List Char) : isDoc (crlf s) = isDoc s := by
  rw [Bool.eq_iff_iff, isDoc_iff, isDoc_iff]
  constructor
  · rintro ⟨rest, heq, hslash⟩
    obtain ⟨later, rfl, rfl⟩ := head_crlf ⟨by decide, by decide⟩ heq
    refine ⟨later, rfl, fun tail htail => ?_⟩
    subst htail
    exact hslash _ (crlf_cons (by decide) tail)
  · rintro ⟨rest, rfl, hslash⟩
    refine ⟨crlf rest, crlf_cons (by decide) rest, fun later hlater => ?_⟩
    obtain ⟨tail, rfl, -⟩ := head_crlf ⟨by decide, by decide⟩ hlater
    exact hslash tail rfl

theorem block?_crlf (s : List Char) : block? (crlf s) = (block? s).map crlf := by
  unfold block?
  rw [isDoc_crlf]
  split
  · next hdoc =>
    obtain ⟨rest, rfl, -⟩ := isDoc_iff.mp hdoc
    rw [crlf_cons (by decide), List.drop_one, List.drop_one, List.tail_cons, List.tail_cons,
      throughClose?_crlf]
    cases throughClose? rest with
    | none => rfl
    | some text => exact congrArg some (crlf_cons (by decide) text).symm
  · exact throughClose?_crlf s

theorem line_crlf (s : List Char) : line (crlf s) = line s :=
  crlf_congr line (fun _ hb => line_lineBreak hb) s

end Comment

namespace Template

/-- A segment with the other line ending. -/
def Segment.crlf (segment : Segment) : Segment :=
  { segment with text := ScriptLink.crlf segment.text }

theorem segment?_lineFeed (rest : List Char) :
    segment? ('\n' :: rest) = (segment? rest).map (·.cons '\n') :=
  segment?_cons (by decide) (by decide) fun _ h => absurd h (by decide)

/-- Template text goes on across a line break, also behind a backslash. -/
theorem segment?_crlf (s : List Char) : segment? (crlf s) = (segment? s).map Segment.crlf := by
  fun_induction segment? s with
  | case1 => rfl
  | case2 => rfl
  | case3 c rest ih =>
    by_cases hc : c = '\n'
    · subst hc
      -- the backslash takes the carriage return along, and the line feed is plain
      show segment? ('\\' :: '\r' :: '\n' :: crlf rest) = _
      rw [segment?, segment?_lineFeed, ih]
      cases segment? rest <;> rfl
    · rw [crlf_cons (by decide), crlf_cons hc, segment?, ih]
      cases segment? rest with
      | none => rfl
      | some segment => simp [Segment.cons, Segment.crlf, crlf_cons hc, crlf_cons (c := '\\')]
  | case4 rest => rfl
  | case5 rest => rfl
  | case6 c rest hend hslash htick hopener ih =>
    have hne : c ≠ '\\' := RegExp.ne_backslash hend hslash
    by_cases hc : c = '\n'
    · subst hc
      rw [crlf_lineFeed, segment?_cons (by decide) (by decide) fun _ h => absurd h (by decide),
        segment?_lineFeed, ih]
      cases segment? rest <;> rfl
    · rw [crlf_cons hc, segment?_cons hne htick, ih]
      · cases segment? rest with
        | none => rfl
        | some segment => simp [Segment.cons, Segment.crlf, crlf_cons hc]
      · intro later hdollar hbrace
        obtain ⟨tail, rfl, -⟩ := head_crlf ⟨by decide, by decide⟩ hbrace
        exact hopener tail hdollar rfl

end Template

/-! ## Strings -/

namespace Quoted

/-- A string without a line feed ends where it did. -/
theorem body?_crlf {quote : Char} {s body : List Char} (hquote : quote ≠ '\n')
    (h : body? quote s = some body) (hfeed : '\n' ∉ body) : body? quote (crlf s) = some body := by
  obtain ⟨old, rfl⟩ := prefix_of_body? h
  rw [List.append_assoc, List.singleton_append, crlf_append, crlf_eq_self hfeed, crlf_cons hquote]
  exact body?_append h _

/-- The search for the closing quote ends at the line feed that a backslash does not take along. -/
theorem body?_crlf_eq_none {quote : Char} {s body : List Char} (h : body? quote s = some body)
    (hfeed : '\n' ∈ body) : body? quote (crlf s) = none := by
  fun_induction body? quote s generalizing body with
  | case1 => exact absurd h (by simp)
  | case2 => exact absurd h (by simp)
  | case3 c rest ih =>
    obtain ⟨later, hlater, rfl⟩ := Option.map_eq_some_iff.mp h
    by_cases hc : c = '\n'
    · subst hc
      rfl
    · have hrest : '\n' ∈ later := by simpa [Ne.symm hc] using hfeed
      rw [crlf_cons (by decide), crlf_cons hc, body?, ih hlater hrest]
      rfl
  | case4 => exact absurd h (by simp)
  | case5 =>
    obtain rfl := Option.some.inj h
    exact absurd hfeed List.not_mem_nil
  | case6 c rest hend hslash hbreak hquote ih =>
    obtain ⟨later, hlater, rfl⟩ := Option.map_eq_some_iff.mp h
    have hc : c ≠ '\n' := by
      rintro rfl
      exact hbreak rfl
    have hrest : '\n' ∈ later := by simpa [Ne.symm hc] using hfeed
    rw [crlf_cons hc, body?_cons quote (RegExp.ne_backslash hend hslash), if_neg hbreak,
      if_neg hquote, ih hlater hrest]
    rfl

end Quoted

/-! ## Regular expressions -/

namespace RegExp

/-- No line break is part of a body. -/
theorem unbroken_of_body? {s body tail : List Char} (h : body? s = some (body, tail)) :
    Unbroken body := by
  fun_induction body? s generalizing body with
  | case1 => exact absurd h (by simp)
  | case2 => exact absurd h (by simp)
  | case3 => exact absurd h (by simp)
  | case4 c rest hbreak ih =>
    obtain ⟨⟨later, _⟩, hlater, heq⟩ := Option.map_eq_some_iff.mp h
    obtain ⟨rfl, rfl⟩ := Prod.mk.inj heq
    exact .cons (by decide) (.cons (Bool.eq_false_iff.mpr hbreak) (ih hlater))
  | case5 => exact absurd h (by simp)
  | case6 =>
    obtain ⟨rfl, -⟩ := Prod.mk.inj (Option.some.inj h)
    exact .nil
  | case7 c rest _ _ hbreak _ ih =>
    obtain ⟨⟨later, _⟩, hlater, heq⟩ := Option.map_eq_some_iff.mp h
    obtain ⟨rfl, rfl⟩ := Prod.mk.inj heq
    exact .cons (Bool.eq_false_iff.mpr hbreak) (ih hlater)

theorem unbroken_of_literal? {s literal : List Char} (h : literal? ('/' :: s) = some literal) :
    Unbroken literal := by
  unfold literal? at h
  dsimp only at h
  split at h
  · exact absurd h (by simp)
  · exact absurd h (by simp)
  · next body tail _ hbody =>
    split at h
    · obtain rfl := Option.some.inj h
      refine .cons (by decide) fun c hc => ?_
      rcases List.mem_append.mp hc with hc | hc
      · exact unbroken_of_body? hbody c hc
      · exact Unbroken.cons (by decide) (.takeWhile (by decide) tail) c hc
    · exact absurd h (by simp)

theorem literal?_crlf (s : List Char) : literal? ('/' :: crlf s) = literal? ('/' :: s) :=
  crlf_congr (fun s => literal? ('/' :: s)) (fun _ hb s t => literal?_lineBreak hb s t '/') s

end RegExp

/-! ## Steps -/

namespace Context

variable {context : Context} {position : Nat} {c : Char} {rest : List Char} {step : Step}

/-- The step that takes the piece with the other line ending. -/
def crlfStep (step : Step) : Step := { step with tail := crlf step.tail }

theorem crlfStep_plain (context : Context) (kind : TokenKind) (tail : List Char) :
    crlfStep (context.plain kind tail) = context.plain kind (crlf tail) := rfl

/-- A piece without line breaks is the same with either ending. -/
theorem crlfStep_unbroken {kind : TokenKind} {tail : List Char} (h : Unbroken tail) :
    crlfStep (context.plain kind tail) = context.plain kind tail := by
  rw [crlfStep_plain, h.crlf_eq]

theorem operatorStep_crlf (context : Context) (hc : c ≠ '\n') (rest : List Char) :
    context.operatorStep c (crlf rest) = crlfStep (context.operatorStep c rest) := by
  have hmatch : Operator.match? (c :: crlf rest) = Operator.match? (c :: rest) := by
    rw [← crlf_cons hc]
    exact crlf_congr Operator.match? (fun _ hb => Operator.match?_lineBreak hb) (c :: rest)
  unfold operatorStep
  rw [hmatch]
  split
  · next operator hoperator =>
    have hplain : Unbroken (operator.toList.drop 1) :=
      (Operator.unbroken_of_match? hoperator).sublist fun _ hd => List.mem_of_mem_drop hd
    exact (crlfStep_unbroken hplain).symm
  · rfl

theorem slashStep_crlf (h : context.slashStep position rest = .ok step) :
    context.slashStep position (crlf rest) = .ok (crlfStep step) := by
  unfold slashStep at h
  split at h
  · next later =>
    obtain rfl := Except.ok.inj h
    rw [crlf_cons (by decide), slashStep_line, Comment.line_crlf]
    have hplain : Unbroken ('/' :: Comment.line later) := by
      rw [Comment.line_eq_takeWhile]
      exact .cons (by decide) (.takeWhile (by decide) later)
    exact congrArg Except.ok (crlfStep_unbroken hplain).symm
  · next body =>
    dsimp only at h
    rw [crlf_cons (by decide), slashStep_star, Comment.block?_crlf, Comment.isDoc_crlf]
    split at h
    · next text htext =>
      obtain rfl := Except.ok.inj h
      rw [htext, Option.map_some, crlfStep_plain, crlf_cons (by decide)]
    · exact absurd h (by simp)
  · next hline hstar =>
    have hstops : Stops (fun c => c == '/' || c == '*') (crlf rest) := by
      rintro c later heq
      simp only [Bool.or_eq_false_iff, beq_eq_false_iff_ne]
      constructor
      · rintro rfl
        obtain ⟨tail, rfl, -⟩ := head_crlf ⟨by decide, by decide⟩ heq
        exact hline tail rfl
      · rintro rfl
        obtain ⟨tail, rfl, -⟩ := head_crlf ⟨by decide, by decide⟩ heq
        exact hstar tail rfl
    rw [slashStep_of_stops hstops, RegExp.literal?_crlf, operatorStep_crlf context (by decide)]
    cases hliteral : RegExp.literal? ('/' :: rest) with
    | some literal =>
      rw [hliteral] at h
      obtain rfl := Except.ok.inj h
      have hplain : Unbroken (literal.drop 1) :=
        (RegExp.unbroken_of_literal? hliteral).sublist fun _ hd => List.mem_of_mem_drop hd
      show Except.ok (context.plain .regexp (literal.drop 1)) = _
      rw [crlfStep_unbroken hplain]
    | none =>
      rw [hliteral] at h
      obtain rfl := Except.ok.inj h
      rfl

/-- A step that does not begin with a line feed takes the piece with the other line ending, unless
that is a string with a line feed. -/
theorem codeStep_crlf (hc : c ≠ '\n') (h : context.codeStep position c rest = .ok step)
    (hstring : step.kind = .string → '\n' ∉ step.tail) :
    context.codeStep position c (crlf rest) = .ok (crlfStep step) := by
  have hlead := Lead.admits_of c
  rw [codeStep_eq] at h ⊢
  generalize Lead.of c = lead at h hlead ⊢
  cases lead with
  | openBrace | closeBrace | bracket =>
    obtain rfl := Except.ok.inj h
    rfl
  | tick =>
    dsimp only at h ⊢
    rw [Template.segment?_crlf]
    split at h
    · next segment hsegment =>
      obtain rfl := Except.ok.inj h
      rw [hsegment]
      rfl
    · exact absurd h (by simp)
  | quote =>
    dsimp only at h ⊢
    split at h
    · next body hbody =>
      obtain rfl := Except.ok.inj h
      have hfeed : '\n' ∉ body ++ [c] := hstring rfl
      have hbody' := Quoted.body?_crlf hc hbody fun hmem => hfeed (List.mem_append_left _ hmem)
      rw [hbody', crlfStep_plain, crlf_eq_self hfeed]
    · exact absurd h (by simp)
  | slash => exact slashStep_crlf h
  | digit =>
    dsimp only at h ⊢
    rw [← crlf_cons hc,
      crlf_congr Number.literal? (fun _ hb => Number.literal?_lineBreak hb) (c :: rest)]
    split at h
    · next form text hnumber =>
      obtain rfl := Except.ok.inj h
      have hplain : Unbroken (text.drop 1) :=
        (Number.unbroken_literal? hnumber).sublist fun _ hd => List.mem_of_mem_drop hd
      rw [crlfStep_unbroken hplain]
    · obtain rfl := Except.ok.inj h
      rfl
  | word =>
    obtain rfl := Except.ok.inj h
    have hsame : (crlf rest).takeWhile Identifier.isContinue =
        rest.takeWhile Identifier.isContinue :=
      crlf_congr (List.takeWhile Identifier.isContinue)
        (fun _ hb s t => takeWhile_lineBreak hb s t (by decide)) rest
    have hplain : Unbroken (rest.takeWhile Identifier.isContinue) := .takeWhile (by decide) rest
    rw [crlfStep_unbroken hplain]
    dsimp only
    rw [hsame]
  | blank =>
    obtain rfl := Except.ok.inj h
    rw [crlfStep_plain]
    dsimp only
    rw [takeWhile_crlf (by decide)]
  | mark =>
    dsimp only at h ⊢
    have hdots : ['.', '.', '.'].isPrefixOf (crlf (c :: rest)) =
        ['.', '.', '.'].isPrefixOf (c :: rest) :=
      crlf_congr (List.isPrefixOf ['.', '.', '.'])
        (fun _ hb s t => Operator.isPrefixOf_lineBreak hb s t (by decide)) (c :: rest)
    rw [operatorStep_crlf context hc, ← crlf_cons hc, hdots]
    split at h
    · next hseparator =>
      obtain rfl := Except.ok.inj h
      rw [if_pos hseparator]
      rfl
    · next hseparator =>
      obtain rfl := Except.ok.inj h
      rw [if_neg hseparator]

variable {kind : TokenKind} {tail old : List Char} {next : Context}

/-- White space that begins with a line feed begins with a carriage return. -/
theorem codeStep_lineFeed (h : context.codeStep position '\n' rest = .ok step) :
    context.codeStep position '\r' ('\n' :: crlf rest) =
      .ok { step with tail := '\n' :: crlf step.tail } := by
  rw [codeStep_eq, show Lead.of '\n' = .blank by decide] at h
  obtain rfl := Except.ok.inj h
  rw [codeStep_eq, show Lead.of '\r' = .blank by decide]
  dsimp only
  rw [List.takeWhile_cons_of_pos (by decide), takeWhile_crlf (by decide)]
  rfl

theorem templateStep_crlf {opened : Nat} {first : Char} {later : List Char}
    (h : context.templateStep opened c (tail ++ old) = .ok ⟨kind, tail, next⟩)
    (hfirst : crlf (c :: tail) = first :: later) :
    context.templateStep opened first (later ++ crlf old) = .ok ⟨kind, later, next⟩ := by
  rcases templateStep_cases h with ⟨more, heq, hstep⟩ | ⟨text, closes, hsegment, hstep⟩
  · -- the opener of an interpolation
    obtain ⟨rfl, rfl, rfl⟩ := Step.mk.inj hstep
    obtain ⟨rfl, -⟩ := List.cons.inj heq
    obtain ⟨rfl, rfl⟩ := List.cons.inj hfirst
    rfl
  · obtain ⟨rfl, rfl, rfl⟩ := Step.mk.inj hstep
    have hagain := Template.segment?_crlf (c :: (tail ++ old))
    rw [hsegment, ← List.cons_append, crlf_append, hfirst] at hagain
    rw [Option.map_some, Template.Segment.crlf, hfirst] at hagain
    unfold templateStep
    rw [← List.cons_append, hagain]
    rfl

/-- **A step takes the piece with the other line ending**, unless that is a string with a line
feed. -/
theorem step_crlf (h : context.step position c (tail ++ old) = .ok ⟨kind, tail, next⟩)
    (hstring : kind = .string → '\n' ∉ c :: tail) :
    ∃ first later, crlf (c :: tail) = first :: later ∧
      context.step position first (later ++ crlf old) = .ok ⟨kind, later, next⟩ := by
  unfold Context.step at h ⊢
  cases hmode : context.mode with
  | code =>
    rw [hmode] at h
    dsimp only at h ⊢
    by_cases hc : c = '\n'
    · subst hc
      have hstep := codeStep_lineFeed h
      rw [crlf_append] at hstep
      exact ⟨'\r', '\n' :: crlf tail, rfl, hstep⟩
    · have hstep := codeStep_crlf hc h fun hkind hmem =>
        hstring hkind (List.mem_cons_of_mem c hmem)
      rw [crlf_append] at hstep
      exact ⟨c, crlf tail, crlf_cons hc tail, hstep⟩
  | template opened =>
    rw [hmode] at h
    cases hfirst : crlf (c :: tail) with
    | nil =>
      unfold crlf at hfirst
      rw [List.flatMap_cons, List.append_eq_nil_iff] at hfirst
      split at hfirst <;> exact absurd hfirst.1 (by simp)
    | cons first later => exact ⟨first, later, rfl, templateStep_crlf h hfirst⟩

/-- **A step that takes a string with a line feed fails**, wherever the string stands. -/
theorem step_string_crlf {other : Context} (h : context.step position c (tail ++ old) =
      .ok ⟨.string, tail, next⟩) (hfeed : '\n' ∈ c :: tail) (halike : Alike context other)
    (place : Nat) :
    c ≠ '\n' ∧ other.step place c (crlf (tail ++ old)) = .error ⟨.string, place⟩ := by
  obtain ⟨hcode, hquote, body, hbody, hstep⟩ := quoted_of_step h rfl
  obtain ⟨-, rfl, -⟩ := Step.mk.inj hstep
  have hlead := Lead.admits_of c
  rw [hquote] at hlead
  have hc : c ≠ '\n' := by rcases hlead with rfl | rfl <;> decide
  have hmem : '\n' ∈ body := by simpa [Ne.symm hc] using hfeed
  refine ⟨hc, ?_⟩
  unfold Context.step
  rw [halike.mode.mp hcode]
  dsimp only
  rw [codeStep_eq, hquote]
  dsimp only
  rw [Quoted.body?_crlf_eq_none hbody hmem]

end Context

/-! ## A whole script -/

/-- The piece is a string that a backslash continues on the next line. -/
def Piece.IsContinued (piece : Piece) : Prop := piece.kind = .string ∧ '\n' ∈ piece.text

instance (piece : Piece) : Decidable piece.IsContinued :=
  inferInstanceAs (Decidable (piece.kind = .string ∧ '\n' ∈ piece.text))

theorem Piece.texts_crlf (pieces : List Piece) :
    Piece.texts (pieces.map Piece.crlf) = ScriptLink.crlf (Piece.texts pieces) := by
  induction pieces with
  | nil => rfl
  | cons piece rest ih =>
    rw [List.map_cons, texts_cons, texts_cons, crlf_append, ih]
    rfl

namespace Scanned

variable {context : Context} {pieces : List Piece}

/-- By induction on the pieces: each is taken with the other line ending, and leaves the scanner as
it was. -/
theorem crlf (h : Scanned context pieces) (hpieces : ∀ piece ∈ pieces, ¬ piece.IsContinued) :
    Scanned context (pieces.map Piece.crlf) := by
  induction h with
  | nil => exact .nil
  | @cons context next position c tail kind rest hstep hrest ih =>
    have hfirst := hpieces _ List.mem_cons_self
    obtain ⟨first, later, htext, hagain⟩ :=
      Context.step_crlf hstep fun hkind hmem => hfirst ⟨hkind, hmem⟩
    rw [← Piece.texts_crlf] at hagain
    have hlater := ih fun piece hmem => hpieces piece (List.mem_cons_of_mem _ hmem)
    have hall := Scanned.cons hagain hlater
    rw [List.map_cons]
    unfold Piece.crlf at hall ⊢
    rw [htext]
    exact hall

/-- The scan goes on up to the first string with a line feed, and fails there. -/
theorem scan_crlf {before after : List Piece} {piece : Piece}
    (h : Scanned context (before ++ piece :: after))
    (hbefore : ∀ earlier ∈ before, ¬ earlier.IsContinued) (hpiece : piece.IsContinued)
    {other : Context} (halike : Context.Alike context other) (place : Nat) :
    other.scan place (ScriptLink.crlf (Piece.texts (before ++ piece :: after))) =
      .error ⟨.string, place + byteLength (ScriptLink.crlf (Piece.texts before))⟩ := by
  induction before generalizing context other place with
  | nil =>
    cases h with
    | @cons _ next position c tail kind rest hstep hrest =>
      obtain ⟨rfl, hfeed⟩ := hpiece
      obtain ⟨hc, hfails⟩ := Context.step_string_crlf hstep hfeed halike place
      show other.scan place (ScriptLink.crlf (c :: (tail ++ Piece.texts after))) = _
      rw [crlf_cons hc, Context.scan, hfails]
      rfl
  | cons first rest ih =>
    rw [List.cons_append] at h ⊢
    cases h with
    | @cons _ next position c tail kind _ hstep hrest =>
      have hfirst := hbefore _ List.mem_cons_self
      have hrestBefore : ∀ earlier ∈ rest, ¬ earlier.IsContinued :=
        fun earlier hmem => hbefore earlier (List.mem_cons_of_mem _ hmem)
      obtain ⟨head, later, htext, hagain⟩ :=
        Context.step_crlf hstep fun hkind hmem => hfirst ⟨hkind, hmem⟩
      obtain ⟨next', hother, hnext⟩ := halike.step hagain place
      have hlater := ih hrest hrestBefore hnext (place + byteLength (head :: later))
      rw [Piece.texts_cons, crlf_append, htext, Piece.texts_cons, crlf_append, htext,
        byteLength_append, ← Nat.add_assoc, ← hlater, List.cons_append, Context.scan, hother]
      dsimp only
      rw [List.drop_left, hlater]

end Scanned

variable {source : String} {stream : TokenStream}

/-- **A script has the same tokens with either line ending**, with the texts written accordingly, up
to the first string that a backslash continues on the next line. With carriage returns that string
does not end. -/
theorem tokenize_crlf (htokenize : tokenize source = .ok stream) :
    ((∀ piece ∈ stream.toPieces, ¬ piece.IsContinued) →
      ∃ other, tokenize (String.ofList (crlf source.toList)) = .ok other ∧
        other.toPieces = stream.toPieces.map Piece.crlf) ∧
    ∀ before piece after, stream.toPieces = before ++ piece :: after →
      (∀ earlier ∈ before, ¬ earlier.IsContinued) → piece.IsContinued →
      tokenize (String.ofList (crlf source.toList)) =
        .error ⟨.string, byteLength (crlf (Piece.texts before))⟩ := by
  have hpieces := toPieces_of_tokenize htokenize
  have hscanned := scanned_of_scan hpieces
  have htexts : Piece.texts stream.toPieces = source.toList := (pieces_eq hpieces).1
  constructor
  · intro hnone
    refine exists_tokenize (hscanned.crlf hnone) ?_
    rw [Piece.texts_crlf, htexts, String.toList_ofList]
  · intro before piece after hsplit hbefore hpiece
    rw [hsplit] at hscanned htexts
    have hfails := hscanned.scan_crlf hbefore hpiece (.refl _) 0
    rw [htexts, Nat.zero_add] at hfails
    unfold tokenize pieces
    rw [String.toList_ofList, hfails]
    rfl

/-- A comment, white space and a template across a line break. -/
theorem template_with_returns :
    ∃ stream other, tokenize "a // b\n \x60c\n\x60" = .ok stream ∧
      tokenize "a // b\r\n \x60c\r\n\x60" = .ok other ∧
      other.toPieces = stream.toPieces.map Piece.crlf ∧ other.size = 5 := by
  have hread : (tokenize "a // b\n \x60c\n\x60").toOption.map (·.toPieces) =
      some [⟨.identifier, ['a']⟩, ⟨.whitespace, [' ']⟩, ⟨.comment, "// b".toList⟩,
        ⟨.whitespace, ['\n', ' ']⟩, ⟨.template, "\x60c\n\x60".toList⟩] := by decide +kernel
  obtain ⟨stream, hstream, hfound⟩ := Option.map_eq_some_iff.mp hread
  have htokenize := eq_ok_of_toOption hstream
  obtain ⟨other, hother, hpieces⟩ := (tokenize_crlf htokenize).1 (by rw [hfound]; decide)
  refine ⟨stream, other, htokenize, hother, hpieces, ?_⟩
  show other.tokens.size = 5
  have hlength := congrArg List.length hpieces
  rw [hfound] at hlength
  simpa [TokenStream.toPieces] using hlength

/-- **A string that a backslash continues does not end** if its lines end in two characters. -/
theorem continued_string_fails :
    (tokenize "\x27a\\\nb\x27").toOption.map (·.toPieces) =
        some [⟨.string, "\x27a\\\nb\x27".toList⟩] ∧
      String.ofList (crlf "\x27a\\\nb\x27".toList) = "\x27a\\\r\nb\x27" ∧
      tokenize "\x27a\\\r\nb\x27" = .error ⟨.string, 0⟩ := by
  refine ⟨by decide +kernel, by decide +kernel, ?_⟩
  have hfails : (Except.casesOn (motive := fun _ => Option Unterminated)
      (tokenize "\x27a\\\r\nb\x27") some fun _ => none) = some ⟨.string, 0⟩ := by decide +kernel
  cases htokens : tokenize "\x27a\\\r\nb\x27" with
  | error error =>
    rw [htokens] at hfails
    exact congrArg Except.error (Option.some.inj hfails)
  | ok stream =>
    rw [htokens] at hfails
    exact absurd hfails (by simp)

end ScriptLink
