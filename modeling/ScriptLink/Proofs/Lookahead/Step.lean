import ScriptLink.Proofs.Lookahead.Literal
import ScriptLink.Proofs.Lookahead.Number
import ScriptLink.Proofs.TemplateNesting

/-!
# A step of the scanner before another text

The scanner takes one piece at a time, and looks behind it to see where it ends. Here the matchers
come together: a step that takes a piece off a text takes the same piece, into the same context,
off a text that goes on alike behind the piece, **`Context.step_append`**.

* **`Operator.match?_congr`** — operators are found alike in texts that go on alike.
* **`Comment.stops_of_line_eq`** — a line comment ends where its line does.
-/

namespace ScriptLink

/-! ## Operators -/

namespace Operator

variable {old new : List Char}

/-- No operator begins a line break, or tells `var` from the words it stands for. -/
theorem plain_of_mem_table {operator : String} (h : operator ∈ table) :
    ∀ c ∈ operator.toList, c ∉ ['l', 'c', 'v'] ∧ RegExp.isLineBreak c = false := by
  revert operator
  decide

theorem isPrefixOf_congr {part : List Char}
    (hpart : ∀ c ∈ part, c ∉ ['l', 'c', 'v'] ∧ RegExp.isLineBreak c = false)
    (h : Agrees old new) : part.isPrefixOf old = part.isPrefixOf new := by
  induction part generalizing old new with
  | nil => rfl
  | cons c later ih =>
    obtain ⟨hc, hbreak⟩ := hpart c List.mem_cons_self
    rcases h.cons_of_head c hc hbreak with ⟨rest, rest', rfl, rfl, hrest⟩ | ⟨hold, hnew⟩
    · have hlater := ih (fun d hd => hpart d (List.mem_cons_of_mem _ hd)) hrest
      simpa [List.isPrefixOf] using hlater
    · have hnone {s : List Char} (hs : ∀ rest, s ≠ c :: rest) :
          (c :: later).isPrefixOf s = false := by
        cases s with
        | nil => rfl
        | cons d rest =>
          have hne : c ≠ d := fun heq => hs rest (by rw [heq])
          simp [List.isPrefixOf, hne]
      rw [hnone hold, hnone hnew]

theorem refused_congr {operator : String} (hbegins : operator.toList.isPrefixOf old = true)
    (h : Agrees old new) : refused operator old = refused operator new := by
  unfold refused
  by_cases hop : operator = "?."
  · subst hop
    obtain ⟨rest, hrest⟩ := List.isPrefixOf_iff_prefix.mp hbegins
    obtain rfl : '?' :: '.' :: rest = old := hrest
    rcases h.cons_of_head '?' (by decide) (by decide) with
      ⟨first, dot, heq, rfl, hdot⟩ | ⟨hnot, -⟩
    · obtain ⟨-, rfl⟩ := List.cons.inj heq
      rcases hdot.cons_of_head '.' (by decide) (by decide) with
        ⟨first, rest', heq, rfl, hagrees⟩ | ⟨hnot, -⟩
      · obtain ⟨-, rfl⟩ := List.cons.inj heq
        rcases hagrees.head_cases with ⟨rfl, rfl⟩ | ⟨c, more, more', rfl, rfl, -⟩ |
          ⟨c, more, more', hc, rfl, rfl⟩
        · rfl
        · rfl
        · rcases hc with rfl | rfl <;> rfl
      · exact absurd rfl (hnot _)
    · exact absurd rfl (hnot _)
  · simp [beq_eq_false_iff_ne.mpr hop]

/-- Which operator comes first is seen before the next line break. -/
theorem match?_congr (h : Agrees old new) : match? old = match? new := by
  unfold match?
  rw [← List.head?_filter, ← List.head?_filter]
  refine congrArg List.head? (List.filter_congr fun operator hmem => ?_)
  have hbegins := isPrefixOf_congr (plain_of_mem_table hmem) h
  rw [← hbegins]
  cases hold : operator.toList.isPrefixOf old with
  | false => rfl
  | true => rw [refused_congr hold h]

/-- A star alone, where no longer operator begins. -/
theorem match?_star {rest : List Char} (h : Stops (fun c => c == '*' || c == '=') rest) :
    match? ('*' :: rest) = some "*" := by
  cases rest with
  | nil => rfl
  | cons c rest =>
    have hc := h c rest rfl
    simp only [Bool.or_eq_false_iff, beq_eq_false_iff_ne] at hc
    obtain ⟨hstar, hequals⟩ := hc
    have hother : ('*' == c) = false ∧ ('=' == c) = false :=
      ⟨by simpa using hstar.symm, by simpa using hequals.symm⟩
    simp [match?, table, List.find?, List.isPrefixOf, hother, refused]

/-- Where a longer operator begins, a star is not taken alone. -/
theorem star_cases (rest : List Char) :
    (Stops (fun c => c == '*' || c == '=') rest ∧ match? ('*' :: rest) = some "*") ∨
      ∃ operator, match? ('*' :: rest) = some operator ∧ operator.toList.drop 1 ≠ [] := by
  cases rest with
  | nil => exact .inl ⟨.nil, match?_star .nil⟩
  | cons c later =>
    cases hc : c == '*' || c == '=' with
    | false => exact .inl ⟨.cons hc, match?_star (.cons hc)⟩
    | true =>
      refine .inr ?_
      rcases Bool.or_eq_true_iff.mp hc with hc | hc <;> obtain rfl := eq_of_beq hc
      · cases hequals : ['='].isPrefixOf later with
        | true =>
          exact ⟨"**=", by simp [match?, table, List.find?, List.isPrefixOf, hequals, refused],
            by decide⟩
        | false =>
          exact ⟨"**", by simp [match?, table, List.find?, List.isPrefixOf, hequals, refused],
            by decide⟩
      · exact ⟨"*=", rfl, by decide⟩

end Operator

/-! ## Line comments -/

namespace Comment

theorem line_eq_takeWhile (s : List Char) : line s = s.takeWhile (!RegExp.isLineBreak ·) := by
  unfold line
  congr 1
  funext c
  simp [RegExp.isLineBreak, bne]

theorem line_eq {part rest : List Char} (hpart : ∀ c ∈ part, RegExp.isLineBreak c = false)
    (h : Stops (!RegExp.isLineBreak ·) rest) : line (part ++ rest) = part := by
  rw [line_eq_takeWhile]
  exact h.takeWhile_append fun c hc => by simp [hpart c hc]

/-- A line comment has no line break, and one follows it unless the text ends. -/
theorem stops_of_line_eq {s rest : List Char} (h : s = line s ++ rest) :
    (∀ c ∈ line s, RegExp.isLineBreak c = false) ∧ Stops (!RegExp.isLineBreak ·) rest := by
  rw [line_eq_takeWhile] at h ⊢
  refine ⟨fun c hc => ?_, Stops.of_takeWhile (by rw [← h])⟩
  simpa using List.all_eq_true.mp List.all_takeWhile c hc

end Comment

/-- An interpolation opens in the other text too. -/
theorem Template.opener_of_agrees {s old new : List Char} {segment : Segment}
    (h : segment? s = some segment) (hopens : segment.closes = false) (hs : s = segment.text ++ old)
    (hagrees : Agrees old new) : ['$', '\x7b'] <+: new := by
  obtain ⟨text, closes⟩ := segment
  obtain rfl : closes = false := hopens
  obtain ⟨-, later, hlater⟩ := quiet_of_open h
  obtain rfl : '$' :: '\x7b' :: later = old := List.append_cancel_left (hlater.symm.trans hs)
  have hplain : ∀ c ∈ ['$', '\x7b'], c ∉ ['l', 'c', 'v'] ∧ RegExp.isLineBreak c = false := by decide
  have hnew := Operator.isPrefixOf_congr hplain hagrees
  exact List.isPrefixOf_iff_prefix.mp
    (hnew.symm.trans (List.isPrefixOf_iff_prefix.mpr ⟨later, rfl⟩))

/-! ## Steps -/

namespace Context

variable {context : Context} {position : Nat} {c : Char} {rest old new : List Char} {step : Step}

theorem operatorStep_congr (context : Context) (h : Agrees (c :: old) (c :: new)) :
    context.operatorStep c old = context.operatorStep c new := by
  unfold operatorStep
  rw [Operator.match?_congr h]

/-- A slash that begins no comment. -/
theorem slashStep_of_stops (h : Stops (fun c => c == '/' || c == '*') rest) :
    context.slashStep position rest =
      match RegExp.literal? ('/' :: rest) with
      | some literal => .ok (context.plain .regexp (literal.drop 1))
      | none => .ok (context.operatorStep '/' rest) := by
  unfold slashStep
  split
  · exact absurd (h _ _ rfl) (by decide)
  · exact absurd (h _ _ rfl) (by decide)
  · rfl

theorem slashStep_line (context : Context) (position : Nat) (rest : List Char) :
    context.slashStep position ('/' :: rest) =
      .ok (context.plain .comment ('/' :: Comment.line rest)) := rfl

theorem slashStep_star (context : Context) (position : Nat) (body : List Char) :
    context.slashStep position ('*' :: body) =
      match Comment.block? body with
      | some text =>
        .ok (context.plain (if Comment.isDoc body then .docComment else .comment) ('*' :: text))
      | none => .error ⟨if Comment.isDoc body then .docComment else .comment, position⟩ := rfl

theorem slashStep_append (h : context.slashStep position rest = .ok step)
    (hrest : rest = step.tail ++ old) (hagrees : Agrees old new) :
    context.slashStep position (step.tail ++ new) = .ok step := by
  have hboth : Agrees rest (step.tail ++ new) := hrest ▸ hagrees.append step.tail
  by_cases hline : ∃ later, rest = '/' :: later
  · obtain ⟨later, rfl⟩ := hline
    obtain rfl := Except.ok.inj h
    have hlater : later = Comment.line later ++ old := (List.cons.inj hrest).2
    obtain ⟨htext, hstops⟩ := Comment.stops_of_line_eq hlater
    show context.slashStep position ('/' :: (Comment.line later ++ new)) = _
    rw [slashStep_line, Comment.line_eq htext (hagrees.stops (by decide) hstops)]
    rfl
  by_cases hblock : ∃ body, rest = '*' :: body
  · obtain ⟨body, rfl⟩ := hblock
    rw [slashStep_star] at h
    split at h
    · next text htext =>
      obtain rfl := Except.ok.inj h
      show context.slashStep position ('*' :: (text ++ new)) = _
      rw [slashStep_star, Comment.block?_append htext new, Comment.isDoc_append htext new]
    · exact absurd h (by simp)
  have hstops : Stops (fun c => c == '/' || c == '*') rest := by
    rintro c later rfl
    simp only [Bool.or_eq_false_iff, beq_eq_false_iff_ne]
    exact ⟨fun hc => hline ⟨later, by rw [hc]⟩, fun hc => hblock ⟨later, by rw [hc]⟩⟩
  rw [slashStep_of_stops hstops] at h
  rw [slashStep_of_stops (hboth.stops (by decide) hstops)]
  split at h
  · next literal hliteral =>
    obtain rfl := Except.ok.inj h
    obtain ⟨part, rfl⟩ := RegExp.cons_of_literal? hliteral
    have hagain := RegExp.literal?_append hliteral hrest hagrees
    rw [show (context.plain .regexp (('/' :: part).drop 1)).tail = part from rfl, hagain]
  · next hnone =>
    rw [RegExp.literal?_eq_none hnone hboth, ← operatorStep_congr context (.cons hboth)]
    exact h

theorem codeStep_append (h : context.codeStep position c rest = .ok step)
    (hrest : rest = step.tail ++ old) (hagrees : Agrees old new) :
    context.codeStep position c (step.tail ++ new) = .ok step := by
  have hboth : Agrees rest (step.tail ++ new) := hrest ▸ hagrees.append step.tail
  have hlead := Lead.admits_of c
  rw [codeStep_eq] at h ⊢
  generalize Lead.of c = lead at h hlead ⊢
  cases lead with
  | openBrace => exact h
  | closeBrace => exact h
  | bracket => exact h
  | tick =>
    dsimp only at h ⊢
    split at h
    · next segment hsegment =>
      obtain rfl := Except.ok.inj h
      rw [Template.segment?_append hsegment fun hopens => Template.opener_of_agrees
        hsegment hopens hrest hagrees]
    · exact absurd h (by simp)
  | quote =>
    dsimp only at h ⊢
    split at h
    · next body hbody =>
      obtain rfl := Except.ok.inj h
      show (match Quoted.body? c (body ++ [c] ++ new) with | some _ => _ | none => _) = _
      rw [List.append_assoc, List.singleton_append, Quoted.body?_append hbody]
    · exact absurd h (by simp)
  | slash => exact slashStep_append h hrest hagrees
  | digit =>
    dsimp only at h ⊢
    split at h
    · next form text hnumber =>
      obtain rfl := Except.ok.inj h
      obtain ⟨-, tail, rfl⟩ := Number.cons_of_literal? hnumber
      have hagain := Number.literal?_append hnumber hrest hagrees
      rw [show (context.plain (.number form) ((c :: tail).drop 1)).tail = tail from rfl, hagain]
    · next hnone =>
      exact absurd hnone (by simp [Number.literal?, show c.isDigit = true from hlead])
  | word =>
    obtain rfl := Except.ok.inj h
    exact congrArg (fun tail => Except.ok (context.plain .identifier tail))
      (hagrees.takeWhile_append (by decide) hrest)
  | blank =>
    obtain rfl := Except.ok.inj h
    exact congrArg (fun tail => Except.ok (context.plain .whitespace tail))
      (hagrees.takeWhile_append (by decide) hrest)
  | mark =>
    dsimp only at h ⊢
    rw [← operatorStep_congr context (.cons hboth),
      ← Operator.isPrefixOf_congr (by decide) (.cons hboth)]
    exact h

theorem templateStep_append {opened : Nat}
    (h : context.templateStep opened c rest = .ok step) (hrest : rest = step.tail ++ old)
    (hagrees : Agrees old new) : context.templateStep opened c (step.tail ++ new) = .ok step := by
  rcases templateStep_cases h with ⟨later, heq, rfl⟩ | ⟨tail, closes, hsegment, rfl⟩
  · obtain ⟨rfl, -⟩ := List.cons.inj heq
    rfl
  · have hsplit : c :: rest = c :: tail ++ old := congrArg (c :: ·) hrest
    have hagain : Template.segment? (c :: (tail ++ new)) = some ⟨c :: tail, closes⟩ :=
      Template.segment?_append hsegment fun hopens =>
        Template.opener_of_agrees hsegment hopens hsplit hagrees
    unfold templateStep
    rw [hagain]
    rfl

/-- **A step is the same before texts that go on alike.** -/
theorem step_append (h : context.step position c rest = .ok step)
    (hrest : rest = step.tail ++ old) (hagrees : Agrees old new) :
    context.step position c (step.tail ++ new) = .ok step := by
  unfold Context.step at h ⊢
  split at h
  · exact codeStep_append h hrest hagrees
  · exact templateStep_append h hrest hagrees

end Context

end ScriptLink
