import ScriptLink.Proofs.Console.Counting
import ScriptLink.Proofs.Numeral
import ScriptLink.Proofs.Shape

/-!
# When the console takes an input as it stands

The console has two readers for one input. The scanner knows comments, regular expressions and
templates; the reader that counts brackets and quotes looks at characters only. A script in which
the brackets are nested is complete for the scanner, and for the counting reader too as long as no
token misleads it.

* **`Console.nesting?`** — the tokens of an input, each with the brackets that are open before it.
* **`Console.IsReadable`** — the tokens that do not mislead. Outside of interpolations these are all
  but comments and regular expressions with quotes or with brackets that they do not close. The
  counting reader takes a template for a string, so inside an interpolation nothing misleads it
  apart from back-ticks.
* **`Console.Follows`** — where the scanner is, against the brackets that are open.
  `Console.settles_of_step` goes from token to token and `Console.settles_of_scan` through the
  input.
* **`Console.isComplete_of_nested`** — the law, and `Console.apostrophe_in_comment`: a token that
  misleads.
-/

namespace ScriptLink.Console

/-! ## Brackets that are open -/

/-- A bracket that is open: the one that closes it, and whether it opens an interpolation. -/
structure Due where
  closer : Char
  interpolates : Bool
  deriving DecidableEq, Repr

/-- The brackets that are open behind a bracket of one character, innermost first; none if it closes
another one than the innermost. -/
def behindBracket? (stack : List Due) (c : Char) : Option (List Due) :=
  match closerOf? c, stack with
  | some closer, _ => some (⟨closer, false⟩ :: stack)
  | none, due :: outer => if due.closer = c then some outer else none
  | none, [] => none

/-- The brackets that are open behind a token; only brackets change them. -/
def behind? (stack : List Due) (piece : Piece) : Option (List Due) :=
  if piece.kind = .bracket then
    match piece.text with
    | [c] => behindBracket? stack c
    | text => if text = ['$', '\x7b'] then some (⟨'\x7d', true⟩ :: stack) else none
  else some stack

/-- The tokens, each with the brackets that are open before it; none unless the brackets are nested
and all of them are closed. -/
def nesting? (stack : List Due) : List Piece → Option (List (List Due × Piece))
  | [] => if stack = [] then some [] else none
  | piece :: rest =>
    (behind? stack piece).bind fun next => (nesting? next rest).map ((stack, piece) :: ·)

/-- The token does not mislead a reader that looks at characters only. -/
def IsReadable (stack : List Due) (piece : Piece) : Prop :=
  if stack.any Due.interpolates then '\x60' ∉ piece.text
  else piece.kind ∈ [TokenKind.comment, .docComment, .regexp] → Harmless piece.text

instance (stack : List Due) (piece : Piece) : Decidable (IsReadable stack piece) := by
  unfold IsReadable
  infer_instance

section

variable {stack next : List Due} {piece : Piece} {c : Char}

theorem behind?_of_ne (h : piece.kind ≠ .bracket) : behind? stack piece = some stack :=
  if_neg h

theorem behind?_opener : behind? stack ⟨.bracket, ['$', '\x7b']⟩ = some (⟨'\x7d', true⟩ :: stack) :=
  rfl

theorem behind?_bracket : behind? stack ⟨.bracket, [c]⟩ = behindBracket? stack c :=
  rfl

/-- A bracket of one character opens, or closes the innermost one. -/
theorem behind?_cases (h : behind? stack ⟨.bracket, [c]⟩ = some next) :
    (∃ closer, closerOf? c = some closer ∧ next = ⟨closer, false⟩ :: stack) ∨
      closerOf? c = none ∧ ∃ due, stack = due :: next ∧ due.closer = c := by
  rw [behind?_bracket] at h
  unfold behindBracket? at h
  split at h
  · next closer hcloser => exact .inl ⟨closer, hcloser, (Option.some.inj h).symm⟩
  · next due outer hnone =>
    split at h
    · next hdue => exact .inr ⟨hnone, due, by rw [Option.some.inj h], hdue⟩
    · exact absurd h (by simp)
  · exact absurd h (by simp)

end

/-! ## What a step takes, as the counting reader sees it -/

/-- A step in program text, by what its token is to a reader that looks at characters only. -/
inductive Takes (context : Context) (position : Nat) (c : Char) (rest : List Char) : Step → Prop
  where
  | openBrace (hc : c = '\x7b') :
      Takes context position c rest ⟨.bracket, [], context.openBrace⟩
  | closeBrace (hc : c = '\x7d') :
      Takes context position c rest ⟨.bracket, [], context.closeBrace⟩
  | bracket (hc : c = '(' ∨ c = ')' ∨ c = '[' ∨ c = ']') :
      Takes context position c rest (context.plain .bracket [])
  | tick {segment : Template.Segment} (hc : c = '\x60')
      (hsegment : Template.segment? rest = some segment) :
      Takes context position c rest
        ⟨.template, segment.text, context.afterSegment position segment⟩
  | string {body : List Char} (hc : c = '\x22' ∨ c = '\x27')
      (hbody : Quoted.body? c rest = some body) :
      Takes context position c rest (context.plain .string (body ++ [c]))
  | remark {kind : TokenKind} {tail : List Char}
      (hkind : kind ∈ [TokenKind.comment, .docComment, .regexp]) :
      Takes context position c rest (context.plain kind tail)
  | unmarked {kind : TokenKind} {tail : List Char} (hkind : kind ≠ .bracket)
      (htext : Unmarked (c :: tail)) : Takes context position c rest (context.plain kind tail)

theorem ne_bracket_of_remark {kind : TokenKind}
    (h : kind ∈ [TokenKind.comment, .docComment, .regexp]) : kind ≠ .bracket := by
  rintro rfl
  exact absurd h (by decide)

section

variable {context : Context} {position : Nat} {c : Char} {rest : List Char} {step : Step}

/-- **What a step in program text takes.** -/
theorem takes_of_codeStep (h : context.codeStep position c rest = .ok step) :
    Takes context position c rest step := by
  have hmark (hc : c = '/' ∨ Lead.of c = .mark) : Unmarked [c] := by
    have hall : ∀ mark ∈ marks, mark ≠ '/' ∧ Lead.of mark ≠ .mark := by decide
    exact .singleton fun hmem => hc.elim (hall c hmem).1 (hall c hmem).2
  cases Context.taken_of_codeStep h with
  | openBrace hc => exact .openBrace hc
  | closeBrace hc => exact .closeBrace hc
  | bracket hc => exact .bracket hc
  | template hc hsegment => exact .tick hc hsegment
  | string hc hbody => exact .string hc hbody
  | lineComment => exact .remark (by decide)
  | blockComment _ _ hkind => exact .remark (by rcases hkind with rfl | rfl <;> decide)
  | regexp => exact .remark (by decide)
  -- no other piece has a mark of the reader
  | number _ hnumber =>
    have hmarks : ∀ mark ∈ marks, Number.isNumeral mark = false := by decide
    obtain ⟨-, tail, rfl⟩ := Number.cons_of_literal? hnumber
    exact .unmarked (by simp) (.of_class hmarks (Number.numeral_of_literal? hnumber))
  | name hc =>
    have hname := Identifier.isContinue_of_isStart hc
    exact .unmarked (by simp) (.of_class (by decide) (forall_mem_cons_takeWhile hname rest))
  | blanks hc =>
    exact .unmarked (by simp) (.of_class (by decide) (forall_mem_cons_takeWhile hc rest))
  | @operator operator hc hoperator =>
    have htable : ∀ operator ∈ Operator.table, ∀ d ∈ operator.toList, d ∉ marks := by decide
    refine .unmarked (by simp) fun d hd => ?_
    rcases List.mem_cons.mp hd with rfl | hd
    · exact hmark hc d List.mem_cons_self
    · exact unmarked_of_not_mem (htable operator (List.mem_of_find?_eq_some hoperator) d
        (List.mem_of_mem_drop hd))
  | delimiter hc => exact .unmarked (by simp) (hmark hc)

end

/-! ## Where the scanner is -/

/-- No bracket of these opens an interpolation. -/
def Outside (stack : List Due) : Prop := ∀ due ∈ stack, due.interpolates = false

/-- The brackets of an interpolation count its braces and its own opener. -/
def Counts (depth : Nat) (inner : List Due) : Prop :=
  depth = inner.countP (·.closer = '\x7d') + 1

/-- Where the scanner is, if these brackets are open: in program text, in a template, or in an
interpolation of it. The number is that of the brackets around the template. -/
inductive Follows : Context → List Due → Nat → Prop where
  | code {stack : List Due} (hstack : Outside stack) : Follows ⟨.code, []⟩ stack stack.length
  | template {opened : Nat} {stack : List Due} (hstack : Outside stack) :
      Follows ⟨.template opened, []⟩ stack stack.length
  | inside {top : Interpolation} {inner outer : List Due} (houter : Outside outer)
      (hdepth : Counts top.depth inner) :
      Follows ⟨.code, [top]⟩ (inner ++ ⟨'\x7d', true⟩ :: outer) outer.length

/-- The count comes to a good end over the text, from any brackets that are due, as long as there are
not more of them than stated. -/
def Settles (context : Context) (height : Nat) (text : List Char) : Prop :=
  ∀ expected : List Char, expected.length ≤ height →
    match context.mode, context.interpolations with
    | .code, [] => isBalancedFrom expected none false text = true
    | .template _, _ => isBalancedFrom expected (some '\x60') false text = true
    | .code, _ :: _ => ∀ escaped, isBalancedFrom expected (some '\x60') escaped text = true

theorem Outside.cons {due : Due} {stack : List Due} (hdue : due.interpolates = false)
    (h : Outside stack) : Outside (due :: stack) := by
  intro other hmem
  rcases List.mem_cons.mp hmem with rfl | hmem
  · exact hdue
  · exact h other hmem

theorem Outside.tail {due : Due} {stack : List Due} (h : Outside (due :: stack)) : Outside stack :=
  fun other hmem => h other (List.mem_cons_of_mem _ hmem)

theorem Outside.any_eq {stack : List Due} (h : Outside stack) :
    stack.any Due.interpolates = false :=
  List.any_eq_false.mpr fun due hmem => by simp [h due hmem]

section

variable {context : Context} {position opened : Nat} {c : Char} {rest later tail : List Char}
  {stack next : List Due} {step : Step} {kind : TokenKind}

/-! ### Program text -/

/-- A bracket in program text: the count goes along with the brackets that are open. -/
theorem settles_of_bracket (hstack : Outside stack) (hquote : isQuote c = false)
    (hcloser : closerOf? c = none → isCloser c = true)
    (hnext : behind? stack ⟨.bracket, [c]⟩ = some next) :
    Outside next ∧
      (Settles ⟨.code, []⟩ next.length rest → Settles ⟨.code, []⟩ stack.length (c :: rest)) := by
  rcases behind?_cases hnext with ⟨closer, hopens, rfl⟩ | ⟨hcloses, due, rfl, -⟩
  · refine ⟨hstack.cons rfl, fun hsettles expected hexpected => ?_⟩
    show isBalancedFrom expected none false (c :: rest) = true
    rw [isBalancedFrom_opener hquote (isCloser_of_closerOf? hopens) hopens]
    exact hsettles (closer :: expected) (Nat.succ_le_succ hexpected)
  · -- what is due need not be what is open: a closer that does not fit is a good end
    refine ⟨hstack.tail, fun hsettles expected hexpected => ?_⟩
    apply isBalancedFrom_closer hquote (hcloser hcloses)
    rintro due others rfl
    exact hsettles others (Nat.le_of_succ_le_succ hexpected)

/-- A template that begins in program text. -/
theorem settles_of_tick {segment : Template.Segment} {height : Nat}
    (hsegment : Template.segment? rest = some segment)
    (h : Settles (Context.afterSegment ⟨.code, []⟩ position segment) height
      (rest.drop segment.text.length)) : Settles ⟨.code, []⟩ height ('\x60' :: rest) := by
  intro expected hexpected
  show isBalancedFrom expected none false ('\x60' :: rest) = true
  rw [isBalancedFrom_quote (by decide)]
  obtain ⟨text, closes⟩ := segment
  obtain ⟨later, rfl⟩ := Template.prefix_of_segment? hsegment
  have h := h expected hexpected
  dsimp only at h
  rw [List.drop_left] at h
  -- a closed template is skipped as a string; an open one leaves both readers inside
  cases closes with
  | true =>
    obtain ⟨body, rfl, hquiet⟩ := Template.quiet_of_closing hsegment
    rw [List.append_assoc, isBalancedFrom_quiet hquiet]
    exact (isBalancedFrom_end (by decide)).trans h
  | false =>
    obtain ⟨hquiet, -⟩ := Template.quiet_of_open hsegment
    rw [isBalancedFrom_quiet hquiet]
    exact h

/-- A token that is no bracket: it is enough that the count comes to a good end over it, from any
brackets that are due, if it does so behind it from no more of them. -/
theorem settles_of_plain (hstack : Outside stack) (hkind : kind ≠ .bracket)
    (hnext : behind? stack ⟨kind, c :: tail⟩ = some next)
    (h : ∀ expected : List Char,
      (∀ due : List Char, due.length ≤ expected.length →
        isBalancedFrom due none false later = true) →
      isBalancedFrom expected none false (c :: rest) = true) :
    ∃ height, Follows ⟨.code, []⟩ next height ∧
      (Settles ⟨.code, []⟩ height later → Settles ⟨.code, []⟩ stack.length (c :: rest)) := by
  obtain rfl := Option.some.inj ((behind?_of_ne hkind).symm.trans hnext)
  refine ⟨stack.length, .code hstack, fun hsettles expected hexpected => ?_⟩
  apply h expected
  intro due hdue
  exact hsettles due (Nat.le_trans hdue hexpected)

theorem settles_code (hstack : Outside stack)
    (hstep : Context.codeStep ⟨.code, []⟩ position c rest = .ok step)
    (hnext : behind? stack ⟨step.kind, c :: step.tail⟩ = some next)
    (hreadable : IsReadable stack ⟨step.kind, c :: step.tail⟩) :
    ∃ height, Follows step.next next height ∧
      (Settles step.next height (rest.drop step.tail.length) →
        Settles ⟨.code, []⟩ stack.length (c :: rest)) := by
  have hprefix := Context.prefix_of_codeStep hstep
  cases takes_of_codeStep hstep with
  | openBrace hc =>
    obtain rfl := hc
    obtain ⟨hnext, hsettles⟩ := settles_of_bracket hstack (by decide) (by decide) hnext
    exact ⟨_, .code hnext, hsettles⟩
  | closeBrace hc =>
    obtain rfl := hc
    obtain ⟨hnext, hsettles⟩ := settles_of_bracket hstack (by decide) (by decide) hnext
    exact ⟨_, .code hnext, hsettles⟩
  | bracket hc =>
    have hmark : isQuote c = false ∧ (closerOf? c = none → isCloser c = true) := by
      rcases hc with rfl | rfl | rfl | rfl <;> decide
    obtain ⟨hnext, hsettles⟩ := settles_of_bracket hstack hmark.1 hmark.2 hnext
    exact ⟨_, .code hnext, hsettles⟩
  | @tick segment hc hsegment =>
    obtain rfl := hc
    obtain rfl := Option.some.inj ((behind?_of_ne (by simp)).symm.trans hnext)
    refine ⟨stack.length, ?_, settles_of_tick hsegment⟩
    obtain ⟨text, closes⟩ := segment
    cases closes with
    | true => exact .code hstack
    | false => exact .template hstack
  | @string body hc hbody =>
    have hquote : isQuote c = true ∧ c ≠ '\\' := by rcases hc with rfl | rfl <;> decide
    have hkind : TokenKind.string ≠ .bracket := by decide
    refine settles_of_plain hstack hkind hnext fun expected hlater => ?_
    rw [isBalancedFrom_quote hquote.1, isBalancedFrom_body hquote.2 hbody]
    have hbehind := hlater expected (Nat.le_refl _)
    simpa [Context.plain] using hbehind
  | @remark kind tail hkind =>
    have hharmless : Harmless (c :: tail) := by
      unfold IsReadable at hreadable
      rw [hstack.any_eq, if_neg Bool.false_ne_true] at hreadable
      exact hreadable hkind
    obtain ⟨later, rfl⟩ := hprefix
    refine settles_of_plain hstack (ne_bracket_of_remark hkind) hnext fun expected hlater => ?_
    rw [Context.plain, List.drop_left] at hlater
    exact isBalancedFrom_harmless hharmless hlater
  | @unmarked kind tail hkind htext =>
    obtain ⟨later, rfl⟩ := hprefix
    refine settles_of_plain hstack hkind hnext fun expected hlater => ?_
    rw [Context.plain, List.drop_left] at hlater
    exact (isBalancedFrom_unmarked htext).trans (hlater expected (Nat.le_refl _))

/-! ### Template text -/

theorem settles_template (hstack : Outside stack)
    (hstep : Context.templateStep ⟨.template opened, []⟩ opened c rest = .ok step)
    (hnext : behind? stack ⟨step.kind, c :: step.tail⟩ = some next) :
    ∃ height, Follows step.next next height ∧
      (Settles step.next height (rest.drop step.tail.length) →
        Settles ⟨.template opened, []⟩ stack.length (c :: rest)) := by
  rcases Context.templateStep_cases hstep with ⟨later, heq, rfl⟩ | ⟨tail, closes, hsegment, rfl⟩
  · -- the brackets of the interpolation are none so far, apart from its own
    obtain ⟨rfl, rfl⟩ := List.cons.inj heq
    obtain rfl := Option.some.inj (behind?_opener.symm.trans hnext)
    have hfollows : Follows ⟨.code, [⟨1, opened⟩]⟩ ([] ++ ⟨'\x7d', true⟩ :: stack) stack.length :=
      .inside hstack rfl
    refine ⟨stack.length, hfollows, fun hsettles expected hexpected => ?_⟩
    show isBalancedFrom expected (some '\x60') false ('$' :: '\x7b' :: later) = true
    rw [isBalancedFrom_inside (by decide) (by decide),
      isBalancedFrom_inside (by decide) (by decide)]
    exact hsettles expected hexpected false
  · obtain rfl := Option.some.inj ((behind?_of_ne (by simp)).symm.trans hnext)
    have htext := Template.prefix_of_segment? hsegment
    obtain ⟨later, rfl⟩ := (List.cons_prefix_cons.mp htext).2
    cases closes with
    | true =>
      obtain ⟨body, hbody, hquiet⟩ := Template.quiet_of_closing hsegment
      refine ⟨stack.length, .code hstack, fun hsettles expected hexpected => ?_⟩
      show isBalancedFrom expected (some '\x60') false (c :: tail ++ later) = true
      have hsettles := hsettles expected hexpected
      dsimp only at hsettles
      rw [List.drop_left] at hsettles
      rw [hbody, List.append_assoc, isBalancedFrom_quiet hquiet]
      exact (isBalancedFrom_end (by decide)).trans hsettles
    | false =>
      obtain ⟨hquiet, -⟩ := Template.quiet_of_open hsegment
      refine ⟨stack.length, .template hstack, fun hsettles expected hexpected => ?_⟩
      have hsettles := hsettles expected hexpected
      dsimp only at hsettles
      rw [List.drop_left] at hsettles
      exact (isBalancedFrom_quiet hquiet).trans hsettles

/-! ### Interpolations -/

/-- Without a back-tick the count stays in the template, which it takes for a string. -/
theorem settles_inside_of {top top' : Interpolation} {height : Nat} (htext : '\x60' ∉ c :: tail)
    (h : Settles ⟨.code, [top']⟩ height later) :
    Settles ⟨.code, [top]⟩ height (c :: (tail ++ later)) := by
  intro expected hexpected escaped
  obtain ⟨escaped', heq⟩ := exists_escaped expected later htext escaped
  exact heq.trans (h expected hexpected escaped')

/-- The brace that closes the interpolation. -/
theorem settles_of_last {top : Interpolation} {height : Nat}
    (h : Settles ⟨.template opened, []⟩ height rest) :
    Settles ⟨.code, [top]⟩ height ('\x7d' :: rest) := by
  intro expected hexpected escaped
  have hrest := h expected hexpected
  cases escaped with
  | true => exact hrest
  | false => exact (isBalancedFrom_inside (by decide) (by decide)).trans hrest

theorem counts_cons {depth : Nat} {inner : List Due} {due : Due} (hdue : due.closer ≠ '\x7d') :
    Counts depth (due :: inner) ↔ Counts depth inner := by
  unfold Counts
  rw [List.countP_cons_of_neg (by simpa using hdue)]

theorem counts_cons_brace {depth : Nat} {inner : List Due} {due : Due}
    (hdue : due.closer = '\x7d') :
    Counts (depth + 1) (due :: inner) ↔ Counts depth inner := by
  unfold Counts
  rw [List.countP_cons_of_pos (by simpa using hdue)]
  omega

/-- A bracket in an interpolation opens, or is the interpolation's own brace, or closes a bracket that
was opened there. -/
theorem behind?_inside {inner outer : List Due}
    (hnext : behind? (inner ++ ⟨'\x7d', true⟩ :: outer) ⟨.bracket, [c]⟩ = some next) :
    (∃ closer, closerOf? c = some closer ∧
        next = (⟨closer, false⟩ :: inner) ++ ⟨'\x7d', true⟩ :: outer) ∨
      (inner = [] ∧ c = '\x7d' ∧ next = outer) ∨
      ∃ due others, inner = due :: others ∧ due.closer = c ∧ closerOf? c = none ∧
        next = others ++ ⟨'\x7d', true⟩ :: outer := by
  rcases behind?_cases hnext with ⟨closer, hopens, rfl⟩ | ⟨hcloses, due, hstack, hdue⟩
  · exact .inl ⟨closer, hopens, rfl⟩
  · cases inner with
    | nil =>
      obtain ⟨rfl, rfl⟩ := List.cons.inj hstack
      exact .inr (.inl ⟨rfl, hdue.symm, rfl⟩)
    | cons first others =>
      obtain ⟨rfl, rfl⟩ := List.cons.inj hstack
      exact .inr (.inr ⟨first, others, rfl, hdue, hcloses, rfl⟩)

/-- A brace that closes another one than the interpolation's own. -/
theorem closeBrace_inside {top : Interpolation} {due : Due} {others : List Due}
    (hdue : due.closer = '\x7d') (hdepth : Counts top.depth (due :: others)) :
    ∃ top' : Interpolation, Context.closeBrace ⟨.code, [top]⟩ = ⟨.code, [top']⟩ ∧
      Counts top'.depth others := by
  have hpositive : 1 < top.depth := by
    unfold Counts at hdepth
    rw [List.countP_cons_of_pos (by simpa using hdue)] at hdepth
    omega
  refine ⟨{ top with depth := top.depth - 1 }, ?_, ?_⟩
  · show (if top.depth - 1 = 0 then _ else _) = _
    rw [if_neg (by omega)]
  · rw [← counts_cons_brace hdue]
    show Counts (top.depth - 1 + 1) (due :: others)
    rwa [Nat.sub_add_cancel (Nat.le_of_lt hpositive)]

/-- The interpolation's own brace: the template goes on. -/
theorem closeBrace_last {top : Interpolation} (hdepth : Counts top.depth []) :
    Context.closeBrace ⟨.code, [top]⟩ = ⟨.template top.opened, []⟩ := by
  have hone : top.depth = 1 := hdepth
  show (if top.depth - 1 = 0 then _ else _) = _
  rw [if_pos (by omega)]

theorem settles_inside {top : Interpolation} {inner outer : List Due} (houter : Outside outer)
    (hdepth : Counts top.depth inner)
    (hstep : Context.codeStep ⟨.code, [top]⟩ position c rest = .ok step)
    (hnext : behind? (inner ++ ⟨'\x7d', true⟩ :: outer) ⟨step.kind, c :: step.tail⟩ = some next)
    (hreadable : IsReadable (inner ++ ⟨'\x7d', true⟩ :: outer) ⟨step.kind, c :: step.tail⟩) :
    ∃ height, Follows step.next next height ∧
      (Settles step.next height (rest.drop step.tail.length) →
        Settles ⟨.code, [top]⟩ outer.length (c :: rest)) := by
  have htext : '\x60' ∉ c :: step.tail := by
    unfold IsReadable at hreadable
    rw [if_pos (by simp)] at hreadable
    exact hreadable
  have hstays {top' : Interpolation}
      (h : Settles ⟨.code, [top']⟩ outer.length (rest.drop step.tail.length)) :
      Settles ⟨.code, [top]⟩ outer.length (c :: rest) := by
    obtain ⟨later, rfl⟩ := Context.prefix_of_codeStep hstep
    rw [List.drop_left] at h
    exact settles_inside_of htext h
  -- a token that is no bracket changes nothing
  have hplain {kind : TokenKind} {tail : List Char} (hkind : kind ≠ .bracket)
      (heq : step = Context.plain ⟨.code, [top]⟩ kind tail) :
      ∃ height, Follows step.next next height ∧
        (Settles step.next height (rest.drop step.tail.length) →
          Settles ⟨.code, [top]⟩ outer.length (c :: rest)) := by
    subst heq
    obtain rfl := Option.some.inj ((behind?_of_ne hkind).symm.trans hnext)
    exact ⟨outer.length, .inside houter hdepth, hstays⟩
  cases takes_of_codeStep hstep with
  | openBrace hc =>
    obtain rfl := hc
    rcases behind?_inside hnext with ⟨closer, hcloser, rfl⟩ | ⟨-, hc, -⟩ | ⟨_, _, -, -, hnone, -⟩
    · obtain rfl := Option.some.inj hcloser
      exact ⟨outer.length, .inside houter ((counts_cons_brace rfl).mpr hdepth), hstays⟩
    · exact absurd hc (by decide)
    · exact absurd hnone (by decide)
  | closeBrace hc =>
    obtain rfl := hc
    rcases behind?_inside hnext with
      ⟨closer, hcloser, -⟩ | ⟨rfl, -, rfl⟩ | ⟨due, others, rfl, hdue, -, rfl⟩
    · exact absurd hcloser (by simp [closerOf?])
    · rw [closeBrace_last hdepth]
      exact ⟨next.length, .template houter, settles_of_last⟩
    · obtain ⟨top', hclose, hdepth'⟩ := closeBrace_inside hdue hdepth
      rw [hclose]
      exact ⟨outer.length, .inside houter hdepth', hstays⟩
  | bracket hc =>
    have hne : c ≠ '\x7d' ∧ closerOf? c ≠ some '\x7d' := by
      rcases hc with rfl | rfl | rfl | rfl <;> decide
    rcases behind?_inside hnext with
      ⟨closer, hcloser, rfl⟩ | ⟨-, hc, -⟩ | ⟨due, others, rfl, rfl, -, rfl⟩
    · have hcloser' : closer ≠ '\x7d' := by
        rintro rfl
        exact hne.2 hcloser
      exact ⟨outer.length, .inside houter ((counts_cons hcloser').mpr hdepth), hstays⟩
    · exact absurd hc hne.1
    · exact ⟨outer.length, .inside houter ((counts_cons hne.1).mp hdepth), hstays⟩
  | tick hc hsegment => exact absurd (hc ▸ List.mem_cons_self) htext
  | string hc hbody => exact hplain (by decide) rfl
  | remark hkind => exact hplain (ne_bracket_of_remark hkind) rfl
  | unmarked hkind hunmarked => exact hplain hkind rfl

/-! ### The scan -/

/-- **From token to token**: the scanner and the open brackets stay together, and a good end from the
next token on is one from this token on. -/
theorem settles_of_step {height : Nat} (hfollows : Follows context stack height)
    (hstep : context.step position c rest = .ok step)
    (hnext : behind? stack ⟨step.kind, c :: step.tail⟩ = some next)
    (hreadable : IsReadable stack ⟨step.kind, c :: step.tail⟩) :
    ∃ height', Follows step.next next height' ∧
      (Settles step.next height' (rest.drop step.tail.length) →
        Settles context height (c :: rest)) := by
  cases hfollows with
  | code hstack => exact settles_code hstack hstep hnext hreadable
  | template hstack => exact settles_template hstack hstep hnext
  | inside houter hdepth => exact settles_inside houter hdepth hstep hnext hreadable

theorem settles_of_scan {text : List Char} {found : List Piece} {nested : List (List Due × Piece)}
    {height : Nat} (h : context.scan position text = .ok found)
    (hfollows : Follows context stack height) (hnested : nesting? stack found = some nested)
    (hreadable : ∀ entry ∈ nested, IsReadable entry.1 entry.2) : Settles context height text := by
  induction h using Context.scan_induction generalizing stack nested height with
  | stop position =>
    cases hfollows with
    | code hstack =>
      unfold nesting? at hnested
      split at hnested
      · next hempty =>
        -- nothing is open, so nothing is due either
        subst hempty
        intro expected hexpected
        rw [List.length_eq_zero_iff.mp (Nat.le_zero.mp hexpected)]
        rfl
      · exact absurd hnested (by simp)
  | @step context position c rest step later hstep hlater ih =>
    obtain ⟨next, hnext, hrest⟩ := Option.bind_eq_some_iff.mp hnested
    obtain ⟨entries, hentries, rfl⟩ := Option.map_eq_some_iff.mp hrest
    obtain ⟨height', hfollows', hsettles⟩ := settles_of_step hfollows hstep hnext
      (hreadable (stack, ⟨step.kind, c :: step.tail⟩) List.mem_cons_self)
    exact hsettles (ih hfollows' hentries fun entry hmem =>
      hreadable entry (List.mem_cons_of_mem _ hmem))

end

/-! ## The law -/

/-- **A nested input is taken as it stands**: the console asks for no more lines. The input is one
that the scanner takes apart, and the brackets among its tokens, those of interpolations included,
are nested and all closed. No token misleads the reader that counts characters: outside of
interpolations a comment or a regular expression has no quote and does not open more brackets than
it closes, and inside of them no token has a back-tick. The last character that is not white space,
if there is one, is no backslash, no comma and no opening bracket. -/
theorem isComplete_of_nested {input : String} {stream : TokenStream}
    {nested : List (List Due × Piece)} (htokens : tokenize input = .ok stream)
    (hnested : nesting? [] stream.toPieces = some nested)
    (hreadable : ∀ entry ∈ nested, IsReadable entry.1 entry.2)
    (hlast : ∀ c, (Unicode.trimBlanks input.toList).getLast? = some c →
      c ∉ ['\\', ',', '\x7b', '(', '[']) :
    isComplete input = true := by
  have hfollows : Follows .start [] 0 := .code fun _ hmem => absurd hmem List.not_mem_nil
  have hsettles := settles_of_scan (toPieces_of_tokenize htokens) hfollows hnested hreadable
  have hbalanced : isBalanced input = true := hsettles [] (Nat.le_refl 0)
  have hinside : isInsideLiteral input = false := by
    unfold isInsideLiteral
    rw [htokens]
  have hfinished : (Unicode.trimBlanks input.toList).getLast?.any isUnfinishedAfter = false := by
    cases hend : (Unicode.trimBlanks input.toList).getLast? with
    | none => rfl
    | some c =>
      have hc := hlast c hend
      simp only [List.mem_cons, List.not_mem_nil, or_false, not_or] at hc
      simp [isUnfinishedAfter, hc]
  unfold isComplete
  dsimp only
  rw [hbalanced, hinside, hfinished]
  simp

/-- Brackets in a string, in a comment and around a template with an interpolation. -/
theorem brackets_in_literals :
    let input := "f(\x22(\x22) /* (x) */ + [\x60a)$\x7bb[0]\x7d\x60]"
    ∃ stream nested, tokenize input = .ok stream ∧ nesting? [] stream.toPieces = some nested ∧
      isComplete input = true := by
  intro input
  have hread : ((tokenize input).toOption.bind fun stream => nesting? [] stream.toPieces).any
      (fun nested => decide (∀ entry ∈ nested, IsReadable entry.1 entry.2)) = true := by
    decide +kernel
  obtain ⟨nested, hnested, hreadable⟩ := (Option.any_eq_true _ _).mp hread
  obtain ⟨stream, hstream, hnested⟩ := Option.bind_eq_some_iff.mp hnested
  have htokens := eq_ok_of_toOption hstream
  have hlast : (Unicode.trimBlanks input.toList).getLast? = some ']' := by decide +kernel
  refine ⟨stream, nested, htokens, hnested, ?_⟩
  apply isComplete_of_nested htokens hnested (of_decide_eq_true hreadable)
  intro c hc
  obtain rfl := Option.some.inj (hlast.symm.trans hc)
  decide

/-- **A comment can mislead**: an apostrophe in it is taken for a quote, which is left open. -/
theorem apostrophe_in_comment :
    let input := "x // don\x27t"
    ∃ stream nested, tokenize input = .ok stream ∧ nesting? [] stream.toPieces = some nested ∧
      (Unicode.trimBlanks input.toList).getLast? = some 't' ∧ isComplete input = false := by
  intro input
  have hread : ((tokenize input).toOption.bind fun stream => nesting? [] stream.toPieces).isSome =
      true := by decide +kernel
  obtain ⟨nested, hnested⟩ := Option.isSome_iff_exists.mp hread
  obtain ⟨stream, hstream, hnested⟩ := Option.bind_eq_some_iff.mp hnested
  exact ⟨stream, nested, eq_ok_of_toOption hstream, hnested, by decide +kernel, by decide +kernel⟩

end ScriptLink.Console
