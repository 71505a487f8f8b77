import ScriptLink.Proofs.Tokenization

/-!
# What a step of the scanner can do

In program text the first character of a piece says which matcher reads it. The scanner asks for it
in a fixed order; here the question is asked once, so that a proof about a step has one case per
answer instead of a walk through the order.

* **`Lead.of`** — the answer for a character, and `Lead.admits_of` what it tells about the
  character.
* **`Context.codeStep_eq`** — a step in program text goes by the answer.
* **`Context.Taken`**, **`Context.taken_of_codeStep`** — the pieces that such a step takes.
* **`Context.codeStep_cases`**, **`Context.templateStep_cases`** — what a step does to the context.
  In program text only braces and back-ticks change it.
* **`Context.forall_of_scan`** — what holds of all steps holds of all pieces.
-/

namespace ScriptLink

/-- No blank continues a name. -/
theorem Identifier.isContinue_of_isBlank {c : Char} (h : Unicode.isBlank c = true) :
    isContinue c = false := by
  have hapart : ∀ blank ∈ Unicode.blankRanges,
      ∀ letters ∈ Unicode.xidStartRanges ++ Unicode.xidContinueOnlyRanges,
        blank.2 < letters.1 ∨ letters.2 < blank.1 := by decide +kernel
  have hfirst : ∀ n < 128, Unicode.isBlank (Char.ofNat n) = true →
      isContinue (Char.ofNat n) = false := by decide +kernel
  by_cases hascii : Unicode.isAscii c = true
  · have hlt : c.toNat < 128 := by simpa [Unicode.isAscii] using hascii
    have hc := hfirst c.toNat hlt
    rw [Char.ofNat_toNat] at hc
    exact hc h
  · unfold Unicode.isBlank at h
    rw [if_neg hascii] at h
    obtain ⟨blank, hblank, hlow, hhigh⟩ := (Unicode.Ranges.contains_iff _ c).mp h
    refine Bool.eq_false_iff.mpr fun hcontinue => ?_
    unfold isContinue Unicode.isXidContinue at hcontinue
    rw [if_neg hascii] at hcontinue
    simp only [Bool.or_eq_true, beq_iff_eq] at hcontinue
    rcases hcontinue with (rfl | rfl) | hcontinue
    · exact absurd hascii (by decide)
    · exact absurd hascii (by decide)
    · have hletters : ∃ letters ∈ Unicode.xidStartRanges ++ Unicode.xidContinueOnlyRanges,
          letters.1 ≤ c.toNat ∧ c.toNat ≤ letters.2 := by
        rcases hcontinue with hcontinue | hcontinue <;>
          obtain ⟨letters, hmem, hrange⟩ := (Unicode.Ranges.contains_iff _ c).mp hcontinue
        · exact ⟨letters, List.mem_append_left _ hmem, hrange⟩
        · exact ⟨letters, List.mem_append_right _ hmem, hrange⟩
      obtain ⟨letters, hmem, hlow', hhigh'⟩ := hletters
      rcases hapart blank hblank letters hmem with hlt | hlt <;> omega

/-- A digit continues a name, and begins none. -/
theorem Identifier.of_isDigit {c : Char} (h : c.isDigit = true) :
    isContinue c = true ∧ isStart c = false := by
  have hdigits : ∀ n < 58, (Char.ofNat n).isDigit = true →
      isContinue (Char.ofNat n) = true ∧ isStart (Char.ofNat n) = false := by decide +kernel
  have hrange : 48 ≤ c.toNat ∧ c.toNat ≤ 57 := by
    simpa [Char.isDigit, UInt32.le_iff_toNat_le] using h
  have hc := hdigits c.toNat (by omega)
  rw [Char.ofNat_toNat] at hc
  exact hc h

/-- What a character means at the beginning of a piece of program text. -/
inductive Lead where
  | openBrace
  | closeBrace
  | bracket
  | tick
  | quote
  | slash
  | digit
  | word
  | blank
  | mark
  deriving DecidableEq

namespace Lead

/-- The meaning of a character, in the order in which the scanner asks. -/
def of (c : Char) : Lead :=
  if c = '\x7b' then openBrace
  else if c = '\x7d' then closeBrace
  else if c = '(' ∨ c = ')' ∨ c = '[' ∨ c = ']' then bracket
  else if c = '\x60' then tick
  else if c = '\x22' ∨ c = '\x27' then quote
  else if c = '/' then slash
  else if c.isDigit then digit
  else if Identifier.isStart c then word
  else if Unicode.isBlank c then blank
  else mark

/-- What is known of a character with the given meaning. -/
def Admits : Lead → Char → Prop
  | openBrace, c => c = '\x7b'
  | closeBrace, c => c = '\x7d'
  | bracket, c => c = '(' ∨ c = ')' ∨ c = '[' ∨ c = ']'
  | tick, c => c = '\x60'
  | quote, c => c = '\x22' ∨ c = '\x27'
  | slash, c => c = '/'
  | digit, c => c.isDigit = true
  | word, c => Identifier.isStart c = true
  | blank, c => Unicode.isBlank c = true
  | mark, c => Identifier.isStart c = false ∧ Unicode.isBlank c = false

theorem admits_of (c : Char) : (of c).Admits c := by
  fun_cases of c <;> simp_all [Admits]

theorem of_isStart {c : Char} (h : Identifier.isStart c = true) : of c = .word := by
  have hne {d : Char} (hd : Identifier.isStart d = false) : c ≠ d := by
    rintro rfl
    rw [hd] at h
    exact absurd h (by simp)
  have hdigit : ¬ c.isDigit = true := fun hdigit => by
    rw [(Identifier.of_isDigit hdigit).2] at h
    exact absurd h (by simp)
  unfold of
  rw [if_neg (hne (by decide)), if_neg (hne (by decide)), if_neg, if_neg (hne (by decide)), if_neg,
    if_neg (hne (by decide)), if_neg hdigit, if_pos h]
  · exact not_or.mpr ⟨hne (by decide), hne (by decide)⟩
  · simp only [not_or]
    exact ⟨hne (by decide), hne (by decide), hne (by decide), hne (by decide)⟩

theorem of_isBlank {c : Char} (h : Unicode.isBlank c = true) : of c = .blank := by
  have hne {d : Char} (hd : Unicode.isBlank d = false) : c ≠ d := by
    rintro rfl
    rw [hd] at h
    exact absurd h (by simp)
  have hstart : ¬ Identifier.isStart c = true := fun hstart => by
    have hcontinue := Identifier.isContinue_of_isStart hstart
    rw [Identifier.isContinue_of_isBlank h] at hcontinue
    exact absurd hcontinue (by simp)
  have hdigit : ¬ c.isDigit = true := fun hdigit => by
    have hcontinue := (Identifier.of_isDigit hdigit).1
    rw [Identifier.isContinue_of_isBlank h] at hcontinue
    exact absurd hcontinue (by simp)
  unfold of
  rw [if_neg (hne (by decide)), if_neg (hne (by decide)), if_neg, if_neg (hne (by decide)), if_neg,
    if_neg (hne (by decide)), if_neg hdigit, if_neg hstart, if_pos h]
  · exact not_or.mpr ⟨hne (by decide), hne (by decide)⟩
  · simp only [not_or]
    exact ⟨hne (by decide), hne (by decide), hne (by decide), hne (by decide)⟩

end Lead

/-- A character of a class and those of the class that follow it. -/
theorem forall_mem_cons_takeWhile {p : Char → Bool} {c : Char} (hc : p c = true)
    (rest : List Char) : ∀ d ∈ c :: rest.takeWhile p, p d = true :=
  List.forall_mem_cons.mpr ⟨hc, List.all_eq_true.mp List.all_takeWhile⟩

namespace Context

variable {context : Context} {position : Nat} {c : Char} {rest : List Char} {step : Step}

/-- A step in program text goes by what its first character means. -/
theorem codeStep_eq (context : Context) (position : Nat) (c : Char) (rest : List Char) :
    context.codeStep position c rest =
      match Lead.of c with
      | .openBrace => .ok ⟨.bracket, [], context.openBrace⟩
      | .closeBrace => .ok ⟨.bracket, [], context.closeBrace⟩
      | .bracket => .ok (context.plain .bracket [])
      | .tick =>
        match Template.segment? rest with
        | some segment => .ok ⟨.template, segment.text, context.afterSegment position segment⟩
        | none => .error ⟨.template, position⟩
      | .quote =>
        match Quoted.body? c rest with
        | some body => .ok (context.plain .string (body ++ [c]))
        | none => .error ⟨.string, position⟩
      | .slash => context.slashStep position rest
      | .digit =>
        match Number.literal? (c :: rest) with
        | some (form, text) => .ok (context.plain (.number form) (text.drop 1))
        | none => .ok (context.plain (.number .integer) [])
      | .word => .ok (context.plain .identifier (rest.takeWhile Identifier.isContinue))
      | .blank => .ok (context.plain .whitespace (rest.takeWhile Unicode.isBlank))
      | .mark =>
        if Operator.isSeparator c ∧ ¬ ['.', '.', '.'].isPrefixOf (c :: rest) then
          .ok (context.plain .delimiter [])
        else .ok (context.operatorStep c rest) := by
  unfold codeStep
  fun_cases Lead.of c <;> simp only [*, if_true, if_false] <;> rfl

/-- **What a step in program text takes**, with the matcher that has read it: one case for each kind
of piece. A slash that begins nothing else is an operator like any other mark. -/
inductive Taken (context : Context) (position : Nat) (c : Char) (rest : List Char) : Step → Prop
  where
  | openBrace (hc : c = '\x7b') :
      Taken context position c rest ⟨.bracket, [], context.openBrace⟩
  | closeBrace (hc : c = '\x7d') :
      Taken context position c rest ⟨.bracket, [], context.closeBrace⟩
  | bracket (hc : c = '(' ∨ c = ')' ∨ c = '[' ∨ c = ']') :
      Taken context position c rest (context.plain .bracket [])
  | template {segment : Template.Segment} (hc : c = '\x60')
      (hsegment : Template.segment? rest = some segment) :
      Taken context position c rest
        ⟨.template, segment.text, context.afterSegment position segment⟩
  | string {body : List Char} (hc : c = '\x22' ∨ c = '\x27')
      (hbody : Quoted.body? c rest = some body) :
      Taken context position c rest (context.plain .string (body ++ [c]))
  | lineComment {later : List Char} (hc : c = '/') (hrest : rest = '/' :: later) :
      Taken context position c rest (context.plain .comment ('/' :: Comment.line later))
  | blockComment {body text : List Char} {kind : TokenKind} (hc : c = '/')
      (hrest : rest = '*' :: body) (hkind : kind = .comment ∨ kind = .docComment)
      (htext : Comment.block? body = some text) :
      Taken context position c rest (context.plain kind ('*' :: text))
  | regexp {literal : List Char} (hc : c = '/')
      (hliteral : RegExp.literal? ('/' :: rest) = some literal) :
      Taken context position c rest (context.plain .regexp (literal.drop 1))
  | number {form : NumberKind} {text : List Char} (hc : c.isDigit = true)
      (hnumber : Number.literal? (c :: rest) = some (form, text)) :
      Taken context position c rest (context.plain (.number form) (text.drop 1))
  | name (hc : Identifier.isStart c = true) :
      Taken context position c rest
        (context.plain .identifier (rest.takeWhile Identifier.isContinue))
  | blanks (hc : Unicode.isBlank c = true) :
      Taken context position c rest (context.plain .whitespace (rest.takeWhile Unicode.isBlank))
  | operator {operator : String} (hc : c = '/' ∨ Lead.of c = .mark)
      (hoperator : Operator.match? (c :: rest) = some operator) :
      Taken context position c rest (context.plain .operator (operator.toList.drop 1))
  | delimiter (hc : c = '/' ∨ Lead.of c = .mark) :
      Taken context position c rest (context.plain .delimiter [])

theorem taken_operatorStep (hc : c = '/' ∨ Lead.of c = .mark) :
    Taken context position c rest (context.operatorStep c rest) := by
  unfold operatorStep
  split
  · next operator hoperator => exact .operator hc hoperator
  · exact .delimiter hc

theorem taken_of_slashStep (h : context.slashStep position rest = .ok step) :
    Taken context position '/' rest step := by
  unfold slashStep at h
  dsimp only at h
  split at h
  · obtain rfl := Except.ok.inj h
    exact .lineComment rfl rfl
  · split at h
    · next text htext =>
      obtain rfl := Except.ok.inj h
      refine .blockComment rfl rfl ?_ htext
      split
      · exact .inr rfl
      · exact .inl rfl
    · exact absurd h (by simp)
  · split at h
    · next literal hliteral =>
      obtain rfl := Except.ok.inj h
      exact .regexp rfl hliteral
    · obtain rfl := Except.ok.inj h
      exact taken_operatorStep (.inl rfl)

/-- **A step in program text takes one of the pieces above.** -/
theorem taken_of_codeStep (h : context.codeStep position c rest = .ok step) :
    Taken context position c rest step := by
  have hlead := Lead.admits_of c
  rw [codeStep_eq] at h
  generalize hof : Lead.of c = lead at h hlead
  cases lead with
  | openBrace =>
    obtain rfl := Except.ok.inj h
    exact .openBrace hlead
  | closeBrace =>
    obtain rfl := Except.ok.inj h
    exact .closeBrace hlead
  | bracket =>
    obtain rfl := Except.ok.inj h
    exact .bracket hlead
  | tick =>
    dsimp only at h
    split at h
    · next segment hsegment =>
      obtain rfl := Except.ok.inj h
      exact .template hlead hsegment
    · exact absurd h (by simp)
  | quote =>
    dsimp only at h
    split at h
    · next body hbody =>
      obtain rfl := Except.ok.inj h
      exact .string hlead hbody
    · exact absurd h (by simp)
  | slash =>
    obtain rfl := hlead
    exact taken_of_slashStep h
  | digit =>
    dsimp only at h
    split at h
    · next form text hnumber =>
      obtain rfl := Except.ok.inj h
      exact .number hlead hnumber
    · next hnone =>
      exact absurd hnone (by simp [Number.literal?, show c.isDigit = true from hlead])
  | word =>
    obtain rfl := Except.ok.inj h
    exact .name hlead
  | blank =>
    obtain rfl := Except.ok.inj h
    exact .blanks hlead
  | mark =>
    dsimp only at h
    split at h
    · obtain rfl := Except.ok.inj h
      exact .delimiter (.inr hof)
    · obtain rfl := Except.ok.inj h
      exact taken_operatorStep (.inr hof)

/-- A piece that begins with neither a brace nor a back-tick leaves the context alone, and it is no
template text. -/
theorem plain_of_codeStep (h : context.codeStep position c rest = .ok step) (hopen : c ≠ '\x7b')
    (hclose : c ≠ '\x7d') (htick : c ≠ '\x60') :
    ∃ kind tail, kind ≠ .template ∧ step = context.plain kind tail := by
  cases taken_of_codeStep h with
  | openBrace hc => exact absurd hc hopen
  | closeBrace hc => exact absurd hc hclose
  | template hc => exact absurd hc htick
  | blockComment _ _ hkind => exact ⟨_, _, by rcases hkind with rfl | rfl <;> decide, rfl⟩
  | _ => exact ⟨_, _, by simp, rfl⟩

/-- What a step in program text does to the context. -/
theorem codeStep_cases (h : context.codeStep position c rest = .ok step) :
    (c = '\x7b' ∧ step = ⟨.bracket, [], context.openBrace⟩) ∨
    (c = '\x7d' ∧ step = ⟨.bracket, [], context.closeBrace⟩) ∨
    (c = '\x60' ∧ ∃ segment, Template.segment? rest = some segment ∧
      step = ⟨.template, segment.text, context.afterSegment position segment⟩) ∨
    (c ≠ '\x7b' ∧ c ≠ '\x7d' ∧ c ≠ '\x60' ∧
      ∃ kind tail, kind ≠ .template ∧ step = context.plain kind tail) := by
  by_cases hopen : c = '\x7b'
  · subst hopen
    exact .inl ⟨rfl, (Except.ok.inj h).symm⟩
  by_cases hclose : c = '\x7d'
  · subst hclose
    exact .inr (.inl ⟨rfl, (Except.ok.inj h).symm⟩)
  by_cases htick : c = '\x60'
  · subst htick
    rw [codeStep_eq, show Lead.of '\x60' = .tick by decide] at h
    dsimp only at h
    split at h
    · next segment hsegment =>
      exact .inr (.inr (.inl ⟨rfl, segment, hsegment, (Except.ok.inj h).symm⟩))
    · exact absurd h (by simp)
  exact .inr (.inr (.inr ⟨hopen, hclose, htick, plain_of_codeStep h hopen hclose htick⟩))

/-- What a step in template text does to the context: it opens an interpolation, or it takes a
segment of text. -/
theorem templateStep_cases {opened : Nat} (h : context.templateStep opened c rest = .ok step) :
    (∃ later, c :: rest = '$' :: '\x7b' :: later ∧
      step = ⟨.bracket, ['\x7b'], context.openInterpolation opened⟩) ∨
    ∃ tail closes, Template.segment? (c :: rest) = some ⟨c :: tail, closes⟩ ∧
      step = ⟨.template, tail, context.afterSegment opened ⟨c :: tail, closes⟩⟩ := by
  unfold templateStep at h
  split at h
  · exact absurd h (by simp)
  · next closes hsegment =>
    obtain ⟨later, heq⟩ := Template.opens_of_empty hsegment
    exact .inl ⟨later, heq.symm, (Except.ok.inj h).symm⟩
  · next text closes hne hsegment =>
    cases text with
    | nil => exact (hne rfl).elim
    | cons first tail =>
      obtain ⟨rfl, -⟩ := List.cons_prefix_cons.mp (Template.prefix_of_segment? hsegment)
      exact .inr ⟨tail, closes, hsegment, (Except.ok.inj h).symm⟩

/-- What holds of whatever a step takes holds of all pieces of a scan. -/
theorem forall_of_scan (holds : TokenKind → List Char → Prop)
    (hstep : ∀ {context : Context} {position : Nat} {c : Char} {rest : List Char} {step : Step},
      context.step position c rest = .ok step → holds step.kind (c :: step.tail))
    {text : List Char} {found : List Piece} (h : context.scan position text = .ok found) :
    ∀ piece ∈ found, holds piece.kind piece.text := by
  induction h using scan_induction with
  | stop position => exact fun _ hmem => absurd hmem List.not_mem_nil
  | step htaken hlater ih =>
    intro piece hmem
    rcases List.mem_cons.mp hmem with rfl | hmem
    · exact hstep htaken
    · exact ih piece hmem

end Context

end ScriptLink
