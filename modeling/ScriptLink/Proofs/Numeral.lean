import ScriptLink.Literal.Number

/-!
# The characters of numbers

A number has several forms, and all of them use a few characters only: digits of some radix with
underscores between them, the letters that mark a form, a dot and a sign. What holds of these
characters holds of every character of a number.
-/

namespace ScriptLink.Number

/-- The characters that a number can have. -/
def isNumeral (c : Char) : Bool :=
  isHexDigit c || ['_', 'x', 'X', 'o', 'O', 'n', '.', '+', '-'].contains c

/-- There are only such characters in the text. -/
def Numeral (s : List Char) : Prop := ∀ c ∈ s, isNumeral c = true

instance (s : List Char) : Decidable (Numeral s) :=
  inferInstanceAs (Decidable (∀ c ∈ s, isNumeral c = true))

/-- Digits of the class are characters of numbers. -/
def IsRadixClass (p : Char → Bool) : Prop := ∀ c, p c = true → isNumeral c = true

variable {p : Char → Bool} {s t text : List Char} {c : Char}

theorem isRadixClass_hex : IsRadixClass isHexDigit := fun _ h => Bool.or_eq_true_iff.mpr (.inl h)

theorem isRadixClass_decimal : IsRadixClass Char.isDigit := by
  intro c h
  refine isRadixClass_hex c ?_
  unfold isHexDigit
  rw [h, Bool.true_or, Bool.true_or]

theorem isRadixClass_octal : IsRadixClass isOctalDigit := by
  intro c h
  refine isRadixClass_decimal c ?_
  unfold isOctalDigit at h
  unfold Char.isDigit
  simp only [Bool.and_eq_true, decide_eq_true_eq] at h ⊢
  exact ⟨h.1, UInt32.le_trans h.2 (by decide)⟩

theorem isRadixClass_binary : IsRadixClass isBinaryDigit := by
  intro c h
  unfold isBinaryDigit at h
  rcases Bool.or_eq_true_iff.mp h with h | h <;> rw [eq_of_beq h] <;> decide

namespace Numeral

theorem nil : Numeral [] := fun _ h => absurd h List.not_mem_nil

theorem cons (hc : isNumeral c = true) (h : Numeral s) : Numeral (c :: s) := by
  intro d hd
  rcases List.mem_cons.mp hd with rfl | hd
  · exact hc
  · exact h d hd

theorem append (hs : Numeral s) (ht : Numeral t) : Numeral (s ++ t) :=
  fun c hc => (List.mem_append.mp hc).elim (hs c) (ht c)

theorem takeWhile (hp : IsRadixClass p) (s : List Char) : Numeral (s.takeWhile p) :=
  fun c hc => hp c (List.all_eq_true.mp List.all_takeWhile c hc)

theorem filter (hp : IsRadixClass p) (s : List Char) : Numeral (s.filter p) :=
  fun c hc => hp c (List.mem_filter.mp hc).2

end Numeral

theorem numeral_splitGroups (hp : IsRadixClass p) (s : List Char) :
    Numeral (splitGroups p s).1 := by
  have hbar : IsRadixClass (· == '_') := fun c hc => by
    rw [eq_of_beq hc]
    decide
  fun_induction splitGroups p s with
  | case1 => exact .nil
  | case2 s bar rest group hsome more tail hmore ih =>
    rw [hmore] at ih
    exact ((Numeral.takeWhile hbar s).append (.takeWhile hp rest)).append ih

theorem numeral_splitDigits (hp : IsRadixClass p) (s : List Char) :
    Numeral (splitDigits p s).1 := by
  unfold splitDigits
  dsimp only
  split
  · exact .nil
  · exact (Numeral.takeWhile hp s).append (numeral_splitGroups hp _)

theorem numeral_of_splitExponent? {tail : List Char} (h : splitExponent? s = some (text, tail)) :
    Numeral text := by
  have hsign : IsRadixClass fun c => c == '+' || c == '-' := fun c hc => by
    rcases Bool.or_eq_true_iff.mp hc with hc | hc <;> rw [eq_of_beq hc] <;> decide
  unfold splitExponent? at h
  split at h
  · exact absurd h (by simp)
  · next e rest =>
    split at h
    · next he =>
      dsimp only at h
      split at h
      · exact absurd h (by simp)
      · obtain ⟨rfl, -⟩ := Prod.mk.inj (Option.some.inj h)
        refine .cons ?_ (.append (.filter hsign _) (numeral_splitDigits isRadixClass_decimal _))
        rcases Bool.or_eq_true_iff.mp he with he | he <;> rw [eq_of_beq he] <;> decide
    · exact absurd h (by simp)

theorem numeral_bigMark (s : List Char) : Numeral (bigMark s) := by
  refine .filter (fun c hc => ?_) _
  rw [eq_of_beq hc]
  decide

theorem numeral_of_radixForm? {form kind : NumberKind} {lead rest : List Char}
    (hp : IsRadixClass p) (hlead : Numeral lead)
    (h : radixForm? form p lead rest = some (kind, text)) : Numeral text := by
  unfold radixForm? at h
  dsimp only at h
  split at h
  · exact absurd h (by simp)
  · obtain ⟨-, rfl⟩ := Prod.mk.inj (Option.some.inj h)
    exact (hlead.append (numeral_splitDigits hp rest)).append (numeral_bigMark _)

theorem numeral_of_radixLiteral? {kind : NumberKind}
    (h : radixLiteral? s = some (kind, text)) : Numeral text := by
  have hlead {mark lower upper : Char} (hmark : (mark == lower || mark == upper) = true)
      (hlower : Numeral ['0', lower]) (hupper : Numeral ['0', upper]) :
      Numeral ['0', mark] := by
    rcases Bool.or_eq_true_iff.mp hmark with hmark | hmark <;> rw [eq_of_beq hmark]
    · exact hlower
    · exact hupper
  unfold radixLiteral? at h
  split at h
  · split at h
    · next hx =>
      exact numeral_of_radixForm? isRadixClass_hex (hlead hx (by decide) (by decide)) h
    · split at h
      · next ho =>
        exact numeral_of_radixForm? isRadixClass_octal (hlead ho (by decide) (by decide)) h
      · split at h
        · next hb =>
          exact numeral_of_radixForm? isRadixClass_binary (hlead hb (by decide) (by decide)) h
        · split at h
          · exact numeral_of_radixForm? isRadixClass_octal (by decide) h
          · exact absurd h (by simp)
  · exact absurd h (by simp)

theorem numeral_decimalLiteral (s : List Char) : Numeral (decimalLiteral s).2 := by
  have hwhole := numeral_splitDigits isRadixClass_decimal s
  unfold decimalLiteral
  dsimp only
  split
  · next exponent after hexponent => exact hwhole.append (numeral_of_splitExponent? hexponent)
  · split
    · next after _ =>
      have hfraction := numeral_splitDigits isRadixClass_decimal after
      split
      · exact hwhole
      · refine hwhole.append (.cons (by decide) (hfraction.append ?_))
        cases hexponent : splitExponent? (splitDigits Char.isDigit after).2 with
        | none => exact .nil
        | some found => exact numeral_of_splitExponent? hexponent
    · exact hwhole.append (.cons (by decide) .nil)
    · exact hwhole

/-- **A number has no other characters.** -/
theorem numeral_of_literal? {form : NumberKind} (h : literal? s = some (form, text)) :
    Numeral text := by
  unfold literal? at h
  split at h
  · exact absurd h (by simp)
  · next c rest =>
    split at h
    · cases hradix : radixLiteral? (c :: rest) with
      | some found =>
        rw [hradix] at h
        obtain rfl := Option.some.inj h
        exact numeral_of_radixLiteral? hradix
      | none =>
        rw [hradix] at h
        have hdecimal := numeral_decimalLiteral (c :: rest)
        rw [show decimalLiteral (c :: rest) = (form, text) from Option.some.inj h] at hdecimal
        exact hdecimal
    · exact absurd h (by simp)

end ScriptLink.Number
