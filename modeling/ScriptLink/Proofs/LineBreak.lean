import ScriptLink.Proofs.Lookahead.Step
import ScriptLink.Proofs.Numeral

/-!
# Line breaks in pieces

A statement that begins behind a line break begins behind white space, since no other piece of
program text ends in one: **`Context.kind_of_endsLine`**. Strings, regular expressions and block
comments end with a mark of their own, and numbers, names and operators have no line break at all,
`Unbroken`.
-/

namespace ScriptLink

open RegExp

/-- The text ends in a line break. -/
def endsLine (s : List Char) : Bool := s.getLast?.any isLineBreak

theorem endsLine_append (s : List Char) {t : List Char} (ht : t ≠ []) :
    endsLine (s ++ t) = endsLine t := by
  unfold endsLine
  rw [List.getLast?_append, Option.or_of_isSome (by simpa using ht)]

/-- There is no line break in the text. -/
def Unbroken (s : List Char) : Prop := ∀ c ∈ s, isLineBreak c = false

namespace Unbroken

variable {s t : List Char} {c : Char} {p : Char → Bool}

theorem nil : Unbroken [] := fun _ h => absurd h List.not_mem_nil

theorem cons (hc : isLineBreak c = false) (h : Unbroken s) : Unbroken (c :: s) := by
  intro d hd
  rcases List.mem_cons.mp hd with rfl | hd
  · exact hc
  · exact h d hd

theorem endsLine_eq (h : Unbroken s) : endsLine s = false := by
  unfold endsLine
  cases hlast : s.getLast? with
  | none => rfl
  | some c => exact h c (List.mem_of_getLast? hlast)

/-- Characters of a class without the line breaks. -/
theorem of_class (hp : p '\n' = false ∧ p '\r' = false) (h : ∀ c ∈ s, p c = true) :
    Unbroken s := by
  intro c hc
  refine Bool.eq_false_iff.mpr fun hbreak => ?_
  have hpc := h c hc
  rcases isLineBreak_cases hbreak with rfl | rfl
  · rw [hp.1] at hpc
    exact absurd hpc (by simp)
  · rw [hp.2] at hpc
    exact absurd hpc (by simp)

theorem takeWhile (hp : p '\n' = false ∧ p '\r' = false) (s : List Char) :
    Unbroken (s.takeWhile p) :=
  of_class hp fun c hc => List.all_eq_true.mp List.all_takeWhile c hc

theorem sublist {part : List Char} (h : Unbroken s) (hpart : ∀ c ∈ part, c ∈ s) : Unbroken part :=
  fun c hc => h c (hpart c hc)

theorem of_isName (h : Identifier.isName s = true) : Unbroken s := by
  cases s with
  | nil => exact nil
  | cons c rest =>
    obtain ⟨hstart, hrest⟩ := Bool.and_eq_true_iff.mp h
    refine of_class (p := Identifier.isContinue) ⟨by decide, by decide⟩ fun d hd => ?_
    rcases List.mem_cons.mp hd with rfl | hd
    · exact Identifier.isContinue_of_isStart hstart
    · exact List.all_eq_true.mp hrest d hd

end Unbroken

theorem Number.unbroken_literal? {s text : List Char} {form : NumberKind}
    (h : literal? s = some (form, text)) : Unbroken text :=
  .of_class (by decide) (numeral_of_literal? h)

/-! ## Steps -/

namespace Operator

theorem unbroken_of_match? {s : List Char} {operator : String} (h : match? s = some operator) :
    Unbroken operator.toList :=
  fun c hc => (plain_of_mem_table (List.mem_of_find?_eq_some h) c hc).2

end Operator

/-- A block comment ends with its mark. -/
theorem Comment.endsLine_throughClose? {s text : List Char} (h : throughClose? s = some text) :
    endsLine text = false := by
  fun_induction throughClose? s generalizing text with
  | case1 => exact absurd h (by simp)
  | case2 rest =>
    obtain rfl := Option.some.inj h
    rfl
  | case3 c rest hclose ih =>
    obtain ⟨later, hlater, rfl⟩ := Option.map_eq_some_iff.mp h
    exact (endsLine_append [c] (ne_nil_of_throughClose? hlater)).trans (ih hlater)

theorem Comment.endsLine_block? {s text : List Char} (h : block? s = some text) :
    text ≠ [] ∧ endsLine text = false := by
  unfold block? at h
  split at h
  · obtain ⟨later, hlater, rfl⟩ := Option.map_eq_some_iff.mp h
    refine ⟨by simp, ?_⟩
    exact (endsLine_append ['*'] (ne_nil_of_throughClose? hlater)).trans
      (endsLine_throughClose? hlater)
  · exact ⟨ne_nil_of_throughClose? h, endsLine_throughClose? h⟩

theorem RegExp.endsLine_literal? {s literal : List Char} (h : literal? s = some literal) :
    endsLine literal = false := by
  unfold literal? at h
  split at h
  · exact absurd h (by simp)
  · next slash rest =>
    split at h
    · exact absurd h (by simp)
    · exact absurd h (by simp)
    · next body tail hne hbody =>
      dsimp only at h
      split at h
      · obtain rfl := Option.some.inj h
        rw [← List.cons_append, endsLine_append _ (by simp)]
        exact (Unbroken.cons (by decide) (.takeWhile (by decide) tail)).endsLine_eq
      · exact absurd h (by simp)

namespace Context

variable {context : Context} {position : Nat} {c : Char} {rest : List Char} {step : Step}

/-- **In program text only white space ends a line.** -/
theorem kind_of_endsLine (h : context.codeStep position c rest = .ok step)
    (hcode : step.next.mode = .code) (hends : endsLine (c :: step.tail) = true) :
    step.kind = .whitespace := by
  have hsingle {c : Char} (hc : isLineBreak c = false) : endsLine [c] = false :=
    (Unbroken.cons hc .nil).endsLine_eq
  have hmark (hc : c = '/' ∨ Lead.of c = .mark) : isLineBreak c = false := by
    refine Bool.eq_false_iff.mpr fun hbreak => ?_
    rcases isLineBreak_cases hbreak with rfl | rfl <;> exact absurd hc (by decide)
  have hcases : step.kind = .whitespace ∨ endsLine (c :: step.tail) = false := by
    cases taken_of_codeStep h with
    | blanks => exact .inl rfl
    | openBrace hc => exact .inr (by rw [hc]; rfl)
    | closeBrace hc => exact .inr (by rw [hc]; rfl)
    | bracket hc => exact .inr (by rcases hc with rfl | rfl | rfl | rfl <;> rfl)
    | @template segment hc hsegment =>
      obtain ⟨text, closes⟩ := segment
      cases closes with
      | false => exact absurd hcode (by simp [afterSegment])
      | true =>
        obtain ⟨body, rfl, -⟩ := Template.quiet_of_closing hsegment
        exact .inr (endsLine_append (c :: body) (by simp))
    | @string body hc hbody =>
      have hquote : endsLine [c] = false := by rcases hc with rfl | rfl <;> rfl
      exact .inr ((endsLine_append (c :: body) (by simp)).trans hquote)
    | @lineComment later hc =>
      have hline : Unbroken (Comment.line ('/' :: later)) := by
        rw [Comment.line_eq_takeWhile]
        exact .takeWhile (by decide) _
      exact .inr (by rw [hc]; exact (Unbroken.cons (by decide) hline).endsLine_eq)
    | blockComment hc _ _ htext =>
      obtain ⟨hne, hlast⟩ := Comment.endsLine_block? htext
      exact .inr (by rw [hc]; exact (endsLine_append ['/', '*'] hne).trans hlast)
    | regexp hc hliteral =>
      obtain ⟨part, rfl⟩ := RegExp.cons_of_literal? hliteral
      exact .inr (by rw [hc]; exact RegExp.endsLine_literal? hliteral)
    | number _ hnumber =>
      obtain ⟨-, tail, rfl⟩ := Number.cons_of_literal? hnumber
      exact .inr (Number.unbroken_literal? hnumber).endsLine_eq
    | name hc =>
      have hname := Identifier.isContinue_of_isStart hc
      exact .inr (Unbroken.of_class (by decide) (forall_mem_cons_takeWhile hname rest)).endsLine_eq
    | @operator operator hc hoperator =>
      have hlater : Unbroken (operator.toList.drop 1) :=
        (Operator.unbroken_of_match? hoperator).sublist fun _ => List.mem_of_mem_drop
      exact .inr (Unbroken.cons (hmark hc) hlater).endsLine_eq
    | delimiter hc => exact .inr (hsingle (hmark hc))
  exact hcases.resolve_right (by simp [hends])

end Context

end ScriptLink
