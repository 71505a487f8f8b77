import ScriptLink.Literal.Comment
import ScriptLink.Literal.Number
import ScriptLink.Literal.Quoted
import ScriptLink.Literal.RegExp
import ScriptLink.Literal.Template
import ScriptLink.Operator

/-!
# What a matcher finds stands in the text

Each literal has a matcher of its own, and some of them put their result together from parts: the
body of a string without its quote, the groups of a number with the underscores before them, the
flags of a regular expression behind its slash. Whatever the way, the result is a prefix of the text
that the matcher was given, so the scanner can go on right behind it.

* **`Comment.prefix_of_block?`**, **`Quoted.prefix_of_body?`**, **`RegExp.prefix_of_literal?`**,
  **`Template.prefix_of_segment?`**, **`Number.prefix_of_literal?`**,
  **`Operator.prefix_of_match?`** — one law per matcher.
* **`Template.opens_of_empty`** — an empty segment stands before the opener of an interpolation.
-/

namespace ScriptLink

/-! ## Comments -/

namespace Comment

theorem prefix_line (s : List Char) : line s <+: s := List.takeWhile_prefix _

theorem prefix_of_throughClose? {s text : List Char} (h : throughClose? s = some text) :
    text <+: s := by
  fun_induction throughClose? s generalizing text with
  | case1 => exact absurd h (by simp)
  | case2 rest =>
    obtain rfl := Option.some.inj h
    exact ⟨rest, rfl⟩
  | case3 c rest _ ih =>
    obtain ⟨later, hlater, rfl⟩ := Option.map_eq_some_iff.mp h
    exact (List.prefix_cons_inj c).mpr (ih hlater)

theorem cons_of_isDoc {rest : List Char} (h : isDoc rest = true) :
    rest = '*' :: rest.drop 1 := by
  unfold isDoc at h
  split at h
  · exact absurd h (by simp)
  · rfl
  · exact absurd h (by simp)

theorem prefix_of_block? {rest text : List Char} (h : block? rest = some text) : text <+: rest := by
  unfold block? at h
  split at h
  · next hdoc =>
    obtain ⟨later, hlater, rfl⟩ := Option.map_eq_some_iff.mp h
    rw [cons_of_isDoc hdoc]
    exact (List.prefix_cons_inj '*').mpr (prefix_of_throughClose? hlater)
  · exact prefix_of_throughClose? h

end Comment

/-! ## Strings -/

theorem Quoted.prefix_of_body? {quote : Char} {s body : List Char} (h : body? quote s = some body) :
    body ++ [quote] <+: s := by
  fun_induction body? quote s generalizing body with
  | case1 => exact absurd h (by simp)
  | case2 => exact absurd h (by simp)
  | case3 c rest ih =>
    obtain ⟨later, hlater, rfl⟩ := Option.map_eq_some_iff.mp h
    exact (List.prefix_cons_inj _).mpr ((List.prefix_cons_inj c).mpr (ih hlater))
  | case4 => exact absurd h (by simp)
  | case5 c rest _ _ _ hquote =>
    obtain rfl := Option.some.inj h
    obtain rfl := eq_of_beq hquote
    exact ⟨rest, rfl⟩
  | case6 c rest _ _ _ _ ih =>
    obtain ⟨later, hlater, rfl⟩ := Option.map_eq_some_iff.mp h
    exact (List.prefix_cons_inj c).mpr (ih hlater)

/-! ## Regular expressions -/

namespace RegExp

theorem body?_eq {s body tail : List Char} (h : body? s = some (body, tail)) :
    s = body ++ '/' :: tail := by
  fun_induction body? s generalizing body with
  | case1 => exact absurd h (by simp)
  | case2 => exact absurd h (by simp)
  | case3 => exact absurd h (by simp)
  | case4 c rest _ ih =>
    obtain ⟨⟨later, _⟩, hlater, heq⟩ := Option.map_eq_some_iff.mp h
    obtain ⟨rfl, rfl⟩ := Prod.mk.inj heq
    rw [ih hlater]
    rfl
  | case5 => exact absurd h (by simp)
  | case6 c rest _ _ _ hslash =>
    obtain ⟨rfl, rfl⟩ := Prod.mk.inj (Option.some.inj h)
    rw [eq_of_beq hslash]
    rfl
  | case7 c rest _ _ _ _ ih =>
    obtain ⟨⟨later, _⟩, hlater, heq⟩ := Option.map_eq_some_iff.mp h
    obtain ⟨rfl, rfl⟩ := Prod.mk.inj heq
    rw [ih hlater]
    rfl

theorem prefix_of_literal? {s literal : List Char} (h : literal? s = some literal) :
    literal <+: s := by
  unfold literal? at h
  split at h
  · exact absurd h (by simp)
  · next slash rest =>
    split at h
    · exact absurd h (by simp)
    · exact absurd h (by simp)
    · next body tail _ hbody =>
      dsimp only at h
      split at h
      · obtain rfl := Option.some.inj h
        rw [body?_eq hbody, List.prefix_cons_inj, List.prefix_append_right_inj,
          List.prefix_cons_inj]
        exact List.takeWhile_prefix isFlag
      · exact absurd h (by simp)

end RegExp

/-! ## Template text -/

namespace Template

theorem prefix_of_segment? {s : List Char} {segment : Segment} (h : segment? s = some segment) :
    segment.text <+: s := by
  fun_induction segment? s generalizing segment with
  | case1 => exact absurd h (by simp)
  | case2 => exact absurd h (by simp)
  | case3 c rest ih =>
    obtain ⟨later, hlater, rfl⟩ := Option.map_eq_some_iff.mp h
    exact (List.prefix_cons_inj _).mpr ((List.prefix_cons_inj c).mpr (ih hlater))
  | case4 rest =>
    obtain rfl := Option.some.inj h
    exact ⟨rest, rfl⟩
  | case5 rest =>
    obtain rfl := Option.some.inj h
    exact List.nil_prefix
  | case6 c rest _ _ _ _ ih =>
    obtain ⟨later, hlater, rfl⟩ := Option.map_eq_some_iff.mp h
    exact (List.prefix_cons_inj c).mpr (ih hlater)

theorem opens_of_empty {s : List Char} {closes : Bool} (h : segment? s = some ⟨[], closes⟩) :
    ['$', '\x7b'] <+: s := by
  unfold segment? at h
  split at h
  · exact absurd h (by simp)
  · exact absurd h (by simp)
  · obtain ⟨later, -, heq⟩ := Option.map_eq_some_iff.mp h
    exact absurd (congrArg Segment.text heq) (by simp [Segment.cons])
  · exact absurd (congrArg Segment.text (Option.some.inj h)) (by simp)
  · exact ⟨_, rfl⟩
  · obtain ⟨later, -, heq⟩ := Option.map_eq_some_iff.mp h
    exact absurd (congrArg Segment.text heq) (by simp [Segment.cons])

end Template

/-! ## Numbers

The splitters return the rest of the text as well, so their law is an equation. -/

namespace Number

theorem splitGroups_eq (isDigit : Char → Bool) (s : List Char) :
    (splitGroups isDigit s).1 ++ (splitGroups isDigit s).2 = s := by
  fun_induction splitGroups isDigit s with
  | case1 => rfl
  | case2 s bar rest group _ more tail hmore ih =>
    rw [hmore] at ih
    have hgroup : group ++ rest.dropWhile isDigit = rest := List.takeWhile_append_dropWhile
    have hbar : bar ++ rest = s := List.takeWhile_append_dropWhile
    calc bar ++ group ++ more ++ tail
        = bar ++ (group ++ (more ++ tail)) := by simp only [List.append_assoc]
      _ = s := by rw [ih, hgroup, hbar]

theorem splitDigits_eq (isDigit : Char → Bool) (s : List Char) :
    (splitDigits isDigit s).1 ++ (splitDigits isDigit s).2 = s := by
  unfold splitDigits
  dsimp only
  split
  · rfl
  · rw [List.append_assoc, splitGroups_eq, List.takeWhile_append_dropWhile]

/-- What is filtered out of the first character stands in front. -/
theorem prefix_filter_take_one (keep : Char → Bool) (s : List Char) :
    (s.take 1).filter keep <+: s := by
  cases s with
  | nil => exact List.prefix_refl _
  | cons c rest =>
    cases hkeep : keep c with
    | true => simp [hkeep]
    | false => simp [hkeep]

theorem splitExponent?_eq {s exponent tail : List Char}
    (h : splitExponent? s = some (exponent, tail)) : exponent ++ tail = s := by
  unfold splitExponent? at h
  split at h
  · exact absurd h (by simp)
  · next e rest =>
    split at h
    · dsimp only at h
      split at h
      · exact absurd h (by simp)
      · obtain ⟨rfl, rfl⟩ := Prod.mk.inj (Option.some.inj h)
        have hsign := List.prefix_iff_eq_append.mp
          (prefix_filter_take_one (fun c => c == '+' || c == '-') rest)
        rw [List.cons_append, List.append_assoc, splitDigits_eq, hsign]
    · exact absurd h (by simp)

theorem prefix_of_radixForm? {form kind : NumberKind} {isDigit : Char → Bool}
    {lead rest text : List Char} (h : radixForm? form isDigit lead rest = some (kind, text)) :
    text <+: lead ++ rest := by
  unfold radixForm? at h
  dsimp only at h
  split at h
  · exact absurd h (by simp)
  · obtain ⟨-, rfl⟩ := Prod.mk.inj (Option.some.inj h)
    have hdigits := splitDigits_eq isDigit rest
    have hmark : bigMark (splitDigits isDigit rest).2 <+: (splitDigits isDigit rest).2 :=
      prefix_filter_take_one _ _
    have hall := (List.prefix_append_right_inj (splitDigits isDigit rest).1).mpr hmark
    rw [hdigits] at hall
    rw [List.append_assoc, List.prefix_append_right_inj]
    exact hall

theorem prefix_of_radixLiteral? {s text : List Char} {kind : NumberKind}
    (h : radixLiteral? s = some (kind, text)) : text <+: s := by
  unfold radixLiteral? at h
  split at h
  · split at h
    · exact prefix_of_radixForm? h
    · split at h
      · exact prefix_of_radixForm? h
      · split at h
        · exact prefix_of_radixForm? h
        · split at h
          · exact prefix_of_radixForm? h
          · exact absurd h (by simp)
  · exact absurd h (by simp)

theorem prefix_decimalLiteral (s : List Char) : (decimalLiteral s).2 <+: s := by
  have hwhole := splitDigits_eq Char.isDigit s
  unfold decimalLiteral
  dsimp only
  generalize splitDigits Char.isDigit s = split at hwhole ⊢
  obtain ⟨whole, rest⟩ := split
  obtain rfl : whole ++ rest = s := hwhole
  dsimp only
  split
  · next exponent tail hexponent =>
    rw [List.prefix_append_right_inj]
    exact ⟨tail, splitExponent?_eq hexponent⟩
  · split
    · next after hnone =>
      have hfraction := splitDigits_eq Char.isDigit after
      generalize splitDigits Char.isDigit after = split at hfraction ⊢
      obtain ⟨fraction, tail⟩ := split
      obtain rfl : fraction ++ tail = after := hfraction
      split
      · exact List.prefix_append _ _
      · rw [List.prefix_append_right_inj, List.prefix_cons_inj, List.prefix_append_right_inj]
        cases hexponent : splitExponent? tail with
        | none => exact List.nil_prefix
        | some found => exact ⟨found.2, splitExponent?_eq hexponent⟩
    · rw [List.prefix_append_right_inj]
      exact ⟨_, rfl⟩
    · exact List.prefix_append _ _

theorem prefix_of_literal? {s text : List Char} {form : NumberKind}
    (h : literal? s = some (form, text)) : text <+: s := by
  unfold literal? at h
  split at h
  · exact absurd h (by simp)
  · next c rest =>
    split at h
    · have hliteral := Option.some.inj h
      cases hradix : radixLiteral? (c :: rest) with
      | some found =>
        rw [hradix, Option.getD_some] at hliteral
        exact prefix_of_radixLiteral? (hliteral ▸ hradix)
      | none =>
        rw [hradix, Option.getD_none] at hliteral
        have hdecimal := prefix_decimalLiteral (c :: rest)
        rw [hliteral] at hdecimal
        exact hdecimal
    · exact absurd h (by simp)

end Number

/-! ## Operators -/

theorem Operator.prefix_of_match? {s : List Char} {operator : String}
    (h : match? s = some operator) : operator.toList <+: s := by
  have hfound := List.find?_some h
  rw [Bool.and_eq_true] at hfound
  exact List.isPrefixOf_iff_prefix.mp hfound.1

end ScriptLink
