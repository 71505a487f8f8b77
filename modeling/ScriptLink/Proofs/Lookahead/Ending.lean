import ScriptLink.Proofs.Lookahead.Step

/-!
# The end of a text and a line break

A matcher that comes to the end of its text stops there. Here it is shown that a line break in the
place of the end makes no difference to any of them, whatever stands behind the break: no number,
name or operator goes on with it, no string or regular expression goes on across it, and an
expression can end before it as it can at the end. So a step that the scanner takes on a text is the
step it takes when a line break and more are put behind the text.

* **`takeWhile_lineBreak`**, **`dropWhile_lineBreak`** — a class without line breaks.
* **`Number.literal?_lineBreak`**, **`RegExp.literal?_lineBreak`**,
  **`Operator.match?_lineBreak`** — the matchers that look behind what they take.
* **`Context.step_lineBreak`** — a step of the scanner.
-/

namespace ScriptLink

open RegExp

section

variable {b : Char} (hb : isLineBreak b = true) {p : Char → Bool} (s t : List Char)

include hb

theorem eq_false_of_isLineBreak (hp : p '\n' = false ∧ p '\r' = false) : p b = false := by
  rcases isLineBreak_cases hb with rfl | rfl
  · exact hp.1
  · exact hp.2

theorem takeWhile_lineBreak (hp : p '\n' = false ∧ p '\r' = false) :
    (s ++ b :: t).takeWhile p = s.takeWhile p := by
  induction s with
  | nil => exact List.takeWhile_cons_of_neg (by simp [eq_false_of_isLineBreak hb hp])
  | cons c rest ih =>
    by_cases hc : p c = true
    · rw [List.cons_append, List.takeWhile_cons_of_pos hc, List.takeWhile_cons_of_pos hc, ih]
    · rw [List.cons_append, List.takeWhile_cons_of_neg hc, List.takeWhile_cons_of_neg hc]

theorem dropWhile_lineBreak (hp : p '\n' = false ∧ p '\r' = false) :
    (s ++ b :: t).dropWhile p = s.dropWhile p ++ b :: t := by
  induction s with
  | nil => exact List.dropWhile_cons_of_neg (by simp [eq_false_of_isLineBreak hb hp])
  | cons c rest ih =>
    by_cases hc : p c = true
    · rw [List.cons_append, List.dropWhile_cons_of_pos hc, List.dropWhile_cons_of_pos hc, ih]
    · rw [List.cons_append, List.dropWhile_cons_of_neg hc, List.dropWhile_cons_of_neg hc,
        List.cons_append]

end

/-! ## Numbers -/

namespace Number

variable {b : Char} (hb : isLineBreak b = true) (s t : List Char) {p : Char → Bool}

include hb

theorem splitGroups_lineBreak (hp : p '\n' = false ∧ p '\r' = false) :
    splitGroups p (s ++ b :: t) = ((splitGroups p s).1, (splitGroups p s).2 ++ b :: t) := by
  have hbar : ('\n' == '_') = false ∧ ('\r' == '_') = false := by decide
  fun_induction splitGroups p s with
  | case1 s bar rest group hnone =>
    rw [splitGroups]
    dsimp only
    rw [takeWhile_lineBreak hb s t hbar, dropWhile_lineBreak hb s t hbar,
      takeWhile_lineBreak hb _ t hp, dif_pos hnone]
  | case2 s bar rest group hsome more tail hmore ih =>
    rw [splitGroups]
    dsimp only
    rw [takeWhile_lineBreak hb s t hbar, dropWhile_lineBreak hb s t hbar,
      takeWhile_lineBreak hb _ t hp, dropWhile_lineBreak hb _ t hp, dif_neg hsome]
    have hlater : splitGroups p ((s.dropWhile (· == '_')).dropWhile p ++ b :: t) =
        (more, tail ++ b :: t) := by
      rw [ih, hmore]
    rw [hlater]

theorem splitDigits_lineBreak (hp : p '\n' = false ∧ p '\r' = false) :
    splitDigits p (s ++ b :: t) = ((splitDigits p s).1, (splitDigits p s).2 ++ b :: t) := by
  unfold splitDigits
  dsimp only
  rw [takeWhile_lineBreak hb s t hp, dropWhile_lineBreak hb s t hp]
  split
  · rfl
  · rw [splitGroups_lineBreak hb _ t hp]

/-- What is filtered out of the first character, where a line break is filtered away. -/
theorem filter_take_one_lineBreak (hp : p '\n' = false ∧ p '\r' = false) :
    ((s ++ b :: t).take 1).filter p = (s.take 1).filter p ∧
      (s ++ b :: t).drop ((s.take 1).filter p).length =
        s.drop ((s.take 1).filter p).length ++ b :: t := by
  cases s with
  | nil =>
    have hnot := eq_false_of_isLineBreak hb hp
    exact ⟨by simp [hnot], rfl⟩
  | cons c rest =>
    refine ⟨rfl, ?_⟩
    cases hc : p c with
    | true => simp [hc]
    | false => simp [hc]

theorem splitExponent?_lineBreak : splitExponent? (s ++ b :: t) =
    (splitExponent? s).map fun found => (found.1, found.2 ++ b :: t) := by
  have hdigit : ('\n' : Char).isDigit = false ∧ ('\r' : Char).isDigit = false := by decide
  cases s with
  | nil =>
    have hnot : (b == 'e' || b == 'E') = false :=
      eq_false_of_isLineBreak hb (p := fun c => c == 'e' || c == 'E') (by decide)
    show splitExponent? (b :: t) = none
    simp [splitExponent?, hnot]
  | cons e rest =>
    have hsign := filter_take_one_lineBreak hb rest t (p := fun c => c == '+' || c == '-')
      (by decide)
    rw [List.cons_append]
    unfold splitExponent?
    dsimp only
    rw [hsign.1, hsign.2, splitDigits_lineBreak hb _ t hdigit]
    dsimp only
    split
    · split <;> rfl
    · rfl

theorem bigMark_lineBreak : bigMark (s ++ b :: t) = bigMark s :=
  (filter_take_one_lineBreak hb s t (by decide)).1

theorem radixForm?_lineBreak (hp : p '\n' = false ∧ p '\r' = false) (form : NumberKind)
    (lead : List Char) : radixForm? form p lead (s ++ b :: t) = radixForm? form p lead s := by
  unfold radixForm?
  rw [splitDigits_lineBreak hb s t hp]
  dsimp only
  rw [bigMark_lineBreak hb]

theorem radixLiteral?_lineBreak : radixLiteral? (s ++ b :: t) = radixLiteral? s := by
  match s with
  | [] =>
    have hzero : b ≠ '0' := by rintro rfl; exact absurd hb (by decide)
    exact radixLiteral?_of_ne_zero hzero t
  | c :: rest =>
    by_cases hc : c = '0'
    · subst hc
      cases rest with
      | nil =>
        -- a zero alone names no radix, and a line break is no mark of one
        rcases isLineBreak_cases hb with rfl | rfl <;> rfl
      | cons mark rest =>
        have hoctal := radixForm?_lineBreak hb (mark :: rest) t (p := isOctalDigit) (by decide)
          .octal ['0']
        rw [List.cons_append] at hoctal
        show radixLiteral? ('0' :: mark :: (rest ++ b :: t)) = _
        rw [radixLiteral?_zero, radixLiteral?_zero, hoctal, radixForm?_lineBreak hb rest t (by decide),
          radixForm?_lineBreak hb rest t (by decide), radixForm?_lineBreak hb rest t (by decide)]
    · exact (radixLiteral?_of_ne_zero hc _).trans (radixLiteral?_of_ne_zero hc _).symm

theorem decimalLiteral_lineBreak : decimalLiteral (s ++ b :: t) = decimalLiteral s := by
  have hdigit : ('\n' : Char).isDigit = false ∧ ('\r' : Char).isDigit = false := by decide
  unfold decimalLiteral
  rw [splitDigits_lineBreak hb s t hdigit]
  generalize splitDigits Char.isDigit s = split
  obtain ⟨whole, rest⟩ := split
  dsimp only
  rw [splitExponent?_lineBreak hb rest t]
  cases splitExponent? rest with
  | some found => rfl
  | none =>
    cases rest with
    | nil => rcases isLineBreak_cases hb with rfl | rfl <;> rfl
    | cons c after =>
      dsimp only [Option.map_none, List.cons_append]
      split
      · next heq =>
        obtain ⟨rfl, rfl⟩ := List.cons.inj heq
        rw [splitDigits_lineBreak hb after t hdigit]
        dsimp only
        rw [splitExponent?_lineBreak hb _ t, Option.map_map]
        rfl
      · next heq =>
        obtain ⟨rfl, -⟩ := List.cons.inj heq
        rfl
      · next hdot hmark =>
        split
        · next heq => exact (hdot _ (by rw [(List.cons.inj heq).1])).elim
        · next heq => exact (hmark _ (by rw [(List.cons.inj heq).1])).elim
        · rfl

/-- A number ends before a line break as it ends with the text. -/
theorem literal?_lineBreak : literal? (s ++ b :: t) = literal? s := by
  cases s with
  | nil =>
    have hnot : b.isDigit = false := eq_false_of_isLineBreak hb (by decide)
    show literal? (b :: t) = none
    simp [literal?, hnot]
  | cons c rest =>
    have hradix := radixLiteral?_lineBreak hb (c :: rest) t
    have hdecimal := decimalLiteral_lineBreak hb (c :: rest) t
    rw [List.cons_append] at hradix hdecimal
    show (if c.isDigit then some ((radixLiteral? (c :: (rest ++ b :: t))).getD
      (decimalLiteral (c :: (rest ++ b :: t)))) else none) = literal? (c :: rest)
    rw [hradix, hdecimal]
    rfl

end Number

/-! ## Operators -/

namespace Operator

variable {b : Char} (hb : isLineBreak b = true) (s t : List Char)

include hb

theorem isPrefixOf_lineBreak {part : List Char} (hpart : ∀ c ∈ part, isLineBreak c = false) :
    part.isPrefixOf (s ++ b :: t) = part.isPrefixOf s := by
  induction part generalizing s with
  | nil => simp [List.isPrefixOf]
  | cons c later ih =>
    have hlater : ∀ d ∈ later, isLineBreak d = false :=
      fun d hd => hpart d (List.mem_cons_of_mem _ hd)
    cases s with
    | nil =>
      have hne : c ≠ b := by
        rintro rfl
        exact absurd ((hpart c List.mem_cons_self).symm.trans hb) (by simp)
      simp [List.isPrefixOf, hne]
    | cons d rest =>
      show (c == d && later.isPrefixOf (rest ++ b :: t)) = (c == d && later.isPrefixOf rest)
      rw [ih rest hlater]

/-- Which operator comes first is seen before the line break. -/
theorem match?_lineBreak : match? (s ++ b :: t) = match? s := by
  unfold match?
  rw [← List.head?_filter, ← List.head?_filter]
  refine congrArg List.head? (List.filter_congr fun operator hmem => ?_)
  rw [isPrefixOf_lineBreak hb s t fun c hc => (plain_of_mem_table hmem c hc).2]
  cases hbegins : operator.toList.isPrefixOf s with
  | false => rfl
  | true =>
    -- the one operator that looks ahead has two characters, so a break is no digit behind it
    by_cases hop : operator = "?."
    · subst hop
      obtain ⟨rest, hrest⟩ := List.isPrefixOf_iff_prefix.mp hbegins
      obtain rfl : '?' :: '.' :: rest = s := hrest
      have hdigit : b.isDigit = false := eq_false_of_isLineBreak hb (by decide)
      cases rest with
      | nil => simp [refused, hdigit]
      | cons c later => rfl
    · simp [refused, beq_eq_false_iff_ne.mpr hop]

end Operator

/-! ## Regular expressions and line comments -/

namespace RegExp

/-- A character behind the two cases of a backslash is none. -/
theorem ne_backslash {c : Char} {rest : List Char} (hend : c = '\\' → rest = [] → False)
    (hescape : ∀ (d : Char) (later : List Char), c = '\\' → rest = d :: later → False) :
    c ≠ '\\' := by
  intro hc
  cases rest with
  | nil => exact hend hc rfl
  | cons d later => exact hescape d later hc rfl

variable {b : Char} (hb : isLineBreak b = true) (s t : List Char)

include hb

/-- The search for the end of a body fails at a line break as it fails at the end. -/
theorem body?_lineBreak :
    body? (s ++ b :: t) = (body? s).map fun (body, tail) => (body, tail ++ b :: t) := by
  have hne : b ≠ '\\' := by rintro rfl; exact absurd hb (by decide)
  fun_induction body? s with
  | case1 =>
    show body? (b :: t) = none
    rw [body?_cons hne, if_pos hb]
  | case2 =>
    show body? ('\\' :: b :: t) = none
    rw [body?, if_pos hb]
  | case3 c rest hbreak =>
    show body? ('\\' :: c :: (rest ++ b :: t)) = none
    rw [body?, if_pos hbreak]
  | case4 c rest hbreak ih =>
    show body? ('\\' :: c :: (rest ++ b :: t)) = _
    rw [body?, if_neg hbreak, ih, Option.map_map, Option.map_map]
    rfl
  | case5 c rest hend hescape hbreak =>
    rw [List.cons_append, body?_cons (ne_backslash hend hescape), if_pos hbreak]
    rfl
  | case6 c rest hend hescape hbreak hslash =>
    rw [List.cons_append, body?_cons (ne_backslash hend hescape), if_neg hbreak, if_pos hslash]
    rfl
  | case7 c rest hend hescape hbreak hslash ih =>
    rw [List.cons_append, body?_cons (ne_backslash hend hescape), if_neg hbreak, if_neg hslash, ih,
      Option.map_map, Option.map_map]
    rfl

theorem endsExpression_lineBreak : endsExpression (s ++ b :: t) = endsExpression s := by
  unfold endsExpression
  rw [dropWhile_lineBreak hb s t (by decide)]
  cases s.dropWhile fun c => c == ' ' || c == '\t' with
  | nil => simp [hb]
  | cons c rest => rfl

/-- An expression can end before a line break as it can at the end, so the same slashes begin
regular expressions. -/
theorem literal?_lineBreak (slash : Char) :
    literal? (slash :: (s ++ b :: t)) = literal? (slash :: s) := by
  cases hbody : body? s with
  | none =>
    have hagain := body?_lineBreak hb s t
    rw [hbody, Option.map_none] at hagain
    simp [literal?, hbody, hagain]
  | some found =>
    obtain ⟨body, tail⟩ := found
    have hagain : body? (s ++ b :: t) = some (body, tail ++ b :: t) := by
      rw [body?_lineBreak hb s t, hbody]
      rfl
    by_cases hne : body = []
    · subst hne
      simp [literal?, hbody, hagain]
    · rw [literal?_of_body hagain hne, literal?_of_body hbody hne,
        takeWhile_lineBreak hb tail t (by decide), dropWhile_lineBreak hb tail t (by decide),
        endsExpression_lineBreak hb]

end RegExp

theorem Comment.line_lineBreak {b : Char} (hb : isLineBreak b = true) (s t : List Char) :
    line (s ++ b :: t) = line s := by
  rw [line_eq_takeWhile, line_eq_takeWhile]
  exact takeWhile_lineBreak hb s t (by decide)

/-- A segment of template text stands complete in its text, with the opener behind it if it stops
before one, so it is found whatever is put behind that. -/
theorem Template.segment?_more {s : List Char} {segment : Segment} (h : segment? s = some segment)
    (new : List Char) : segment? (s ++ new) = some segment := by
  obtain ⟨old, hold⟩ := prefix_of_segment? h
  rw [← hold, List.append_assoc]
  refine segment?_append h fun hopens => ?_
  obtain ⟨text, closes⟩ := segment
  obtain rfl : closes = false := hopens
  obtain ⟨-, later, hlater⟩ := quiet_of_open h
  obtain rfl : '$' :: '\x7b' :: later = old := List.append_cancel_left (hlater.symm.trans hold.symm)
  exact ⟨later ++ new, rfl⟩

/-! ## Steps -/

namespace Context

variable {context : Context} {position : Nat} {c b : Char} {rest : List Char} {step : Step}
  (hb : isLineBreak b = true) (t : List Char)

include hb

theorem operatorStep_lineBreak (context : Context) (c : Char) (rest : List Char) :
    context.operatorStep c (rest ++ b :: t) = context.operatorStep c rest := by
  unfold operatorStep
  rw [← List.cons_append, Operator.match?_lineBreak hb]

theorem slashStep_lineBreak (h : context.slashStep position rest = .ok step) :
    context.slashStep position (rest ++ b :: t) = .ok step := by
  by_cases hline : ∃ later, rest = '/' :: later
  · obtain ⟨later, rfl⟩ := hline
    rw [slashStep_line] at h
    show context.slashStep position ('/' :: (later ++ b :: t)) = _
    rw [slashStep_line, Comment.line_lineBreak hb]
    exact h
  by_cases hblock : ∃ body, rest = '*' :: body
  · obtain ⟨body, rfl⟩ := hblock
    rw [slashStep_star] at h
    split at h
    · next text htext =>
      -- the comment ends with its mark, which stands before the line break
      obtain ⟨old, rfl⟩ := Comment.prefix_of_block? htext
      show context.slashStep position ('*' :: (text ++ old ++ b :: t)) = _
      have hkind := (Comment.isDoc_append htext (old ++ b :: t)).trans
        (Comment.isDoc_append htext old).symm
      rw [List.append_assoc, slashStep_star, Comment.block?_append htext, hkind,
        Comment.isDoc_append htext old]
      exact h
    · exact absurd h (by simp)
  have hstops {s : List Char} (hs : ∀ c later, s = c :: later →
      c = b ∨ ∃ tail, rest = c :: tail) : Stops (fun c => c == '/' || c == '*') s := by
    rintro c later rfl
    rcases hs c later rfl with rfl | ⟨tail, htail⟩
    · exact eq_false_of_isLineBreak hb (p := fun c => c == '/' || c == '*') (by decide)
    · simp only [Bool.or_eq_false_iff, beq_eq_false_iff_ne]
      exact ⟨fun hc => hline ⟨tail, by rw [← hc, htail]⟩,
        fun hc => hblock ⟨tail, by rw [← hc, htail]⟩⟩
  have hold : Stops (fun c => c == '/' || c == '*') rest :=
    hstops fun c later heq => .inr ⟨later, heq⟩
  have hnew : Stops (fun c => c == '/' || c == '*') (rest ++ b :: t) := by
    refine hstops fun c later heq => ?_
    cases rest with
    | nil => exact .inl (List.cons.inj heq).1.symm
    | cons d tail => exact .inr ⟨tail, by rw [(List.cons.inj heq).1]⟩
  rw [slashStep_of_stops hold] at h
  rw [slashStep_of_stops hnew, RegExp.literal?_lineBreak hb, operatorStep_lineBreak hb]
  exact h

/-- White space at the end of the text is the one piece that goes on with a line break. -/
theorem codeStep_lineBreak (h : context.codeStep position c rest = .ok step)
    (hblank : step.kind = .whitespace → step.tail ≠ rest) :
    context.codeStep position c (rest ++ b :: t) = .ok step := by
  have hlead := Lead.admits_of c
  rw [codeStep_eq] at h ⊢
  generalize Lead.of c = lead at h hlead ⊢
  cases lead with
  | openBrace => exact h
  | closeBrace => exact h
  | bracket => exact h
  | tick =>
    dsimp only at h ⊢
    split at h
    · next segment hsegment =>
      rw [Template.segment?_more hsegment]
      exact h
    · exact absurd h (by simp)
  | quote =>
    dsimp only at h ⊢
    split at h
    · next body hbody =>
      obtain ⟨old, rfl⟩ := Quoted.prefix_of_body? hbody
      rw [List.append_assoc, List.append_assoc, List.singleton_append, Quoted.body?_append hbody]
      exact h
    · exact absurd h (by simp)
  | slash => exact slashStep_lineBreak hb t h
  | digit =>
    dsimp only at h ⊢
    rw [← List.cons_append, Number.literal?_lineBreak hb]
    exact h
  | word =>
    dsimp only at h ⊢
    rw [takeWhile_lineBreak hb rest t (by decide)]
    exact h
  | blank =>
    obtain rfl := Except.ok.inj h
    show Except.ok (context.plain .whitespace ((rest ++ b :: t).takeWhile Unicode.isBlank)) = _
    have hshort : (rest.takeWhile Unicode.isBlank).length ≠ rest.length := fun hlength =>
      hblank rfl ((List.takeWhile_prefix _).eq_of_length hlength)
    rw [List.takeWhile_append, if_neg hshort]
  | mark =>
    dsimp only at h ⊢
    rw [operatorStep_lineBreak hb, ← List.cons_append,
      Operator.isPrefixOf_lineBreak hb (c :: rest) t (by decide)]
    exact h

omit hb in
theorem templateStep_more {opened : Nat} (h : context.templateStep opened c rest = .ok step)
    (new : List Char) : context.templateStep opened c (rest ++ new) = .ok step := by
  unfold templateStep at h ⊢
  cases hsegment : Template.segment? (c :: rest) with
  | none =>
    rw [hsegment] at h
    exact absurd h (by simp)
  | some segment =>
    rw [hsegment] at h
    rw [← List.cons_append, Template.segment?_more hsegment]
    exact h

/-- **A step is the same with a line break behind the text**, unless it takes white space up to the
end. -/
theorem step_lineBreak (h : context.step position c rest = .ok step)
    (hblank : step.kind = .whitespace → step.tail ≠ rest) :
    context.step position c (rest ++ b :: t) = .ok step := by
  unfold Context.step at h ⊢
  split at h
  · exact codeStep_lineBreak hb t h hblank
  · exact templateStep_more h _

end Context

end ScriptLink
