import ScriptLink.Literal.RegExp

/-!
# Texts that go on alike

A matcher looks at the text behind its match: a name ends where no more letters come, a regular
expression where an expression can end. When a script is rewritten, the text behind a piece
changes, but what changes begins behind a line break, or is one of the words `let` and `const`
that becomes `var`. Two texts that differ no more than that go on alike, `Agrees`.

* `Stops` — a text that does not go on with a class of characters.
* **`Agrees.stops`**, **`Agrees.takeWhile_eq`** — what a class takes from texts that go on alike.
-/

namespace ScriptLink

open RegExp

theorem isLineBreak_cases {c : Char} (h : isLineBreak c = true) : c = '\n' ∨ c = '\r' := by
  simpa [isLineBreak] using h

/-- What is said of the characters of a list is decided on the list, not on all characters. -/
instance decidableForallMem (s : List Char) (p : Char → Prop) [DecidablePred p] :
    Decidable (∀ c ∈ s, p c) :=
  List.decidableBAll p s

/-! ## Texts that go on alike -/

/-- Two texts that go on alike up to a line break or the end, apart from `let` and `const` in the
one where the other has `var`. -/
inductive Agrees : List Char → List Char → Prop where
  | nil : Agrees [] []
  | lineBreak {c : Char} {old new : List Char} (hbreak : isLineBreak c = true) :
      Agrees (c :: old) (c :: new)
  | cons {c : Char} {old new : List Char} (hrest : Agrees old new) : Agrees (c :: old) (c :: new)
  | word {word old new : List Char}
      (hword : word = ['l', 'e', 't'] ∨ word = ['c', 'o', 'n', 's', 't'])
      (hrest : Agrees old new) : Agrees (word ++ old) ('v' :: 'a' :: 'r' :: new)

/-- The text does not go on with a character of the class. -/
def Stops (p : Char → Bool) (s : List Char) : Prop := ∀ c rest, s = c :: rest → p c = false

namespace Stops

variable {p : Char → Bool} {part s rest : List Char} {c : Char}

theorem nil : Stops p [] := fun _ _ h => absurd h (by simp)

theorem cons (h : p c = false) : Stops p (c :: rest) := by
  intro d later heq
  obtain ⟨rfl, -⟩ := List.cons.inj heq
  exact h

theorem takeWhile_eq (h : Stops p s) : s.takeWhile p = [] := by
  cases s with
  | nil => rfl
  | cons c rest => rw [List.takeWhile_cons, h c rest rfl]; rfl

theorem dropWhile_eq (h : Stops p s) : s.dropWhile p = s := by
  cases s with
  | nil => rfl
  | cons c rest => rw [List.dropWhile_cons, h c rest rfl]; rfl

theorem takeWhile_append (hpart : ∀ c ∈ part, p c = true) (h : Stops p s) :
    (part ++ s).takeWhile p = part := by
  rw [List.takeWhile_append_of_pos hpart, h.takeWhile_eq, List.append_nil]

theorem dropWhile_append (hpart : ∀ c ∈ part, p c = true) (h : Stops p s) :
    (part ++ s).dropWhile p = s := by
  rw [List.dropWhile_append_of_pos hpart, h.dropWhile_eq]

/-- Behind the characters of a class the text does not go on with one. -/
theorem dropWhile (p : Char → Bool) (s : List Char) : Stops p (s.dropWhile p) := by
  intro c rest heq
  have hhead := List.head?_dropWhile_not p s
  rw [heq] at hhead
  simpa using hhead

theorem of_takeWhile_eq_nil (h : s.takeWhile p = []) : Stops p s := by
  have hsplit : s.takeWhile p ++ s.dropWhile p = s := List.takeWhile_append_dropWhile
  rw [h, List.nil_append] at hsplit
  rw [← hsplit]
  exact dropWhile p s

/-- A part that is all that a class takes stands before a text that it does not go on with. -/
theorem of_takeWhile (h : (part ++ s).takeWhile p = part) : Stops p s := by
  have hsplit : (part ++ s).takeWhile p ++ (part ++ s).dropWhile p = part ++ s :=
    List.takeWhile_append_dropWhile
  rw [h, List.append_cancel_left_eq] at hsplit
  rw [← hsplit]
  exact dropWhile p _

end Stops

namespace Agrees

variable {old new : List Char} {p : Char → Bool}

theorem append (part : List Char) (h : Agrees old new) : Agrees (part ++ old) (part ++ new) := by
  induction part with
  | nil => exact h
  | cons c rest ih => exact .cons ih

/-- Behind a line break nothing counts. -/
theorem of_lineBreak (part : List Char) {c : Char} (hbreak : isLineBreak c = true) :
    Agrees (part ++ c :: old) (part ++ c :: new) :=
  append part (.lineBreak hbreak)

theorem head_cases (h : Agrees old new) :
    (old = [] ∧ new = []) ∨
      (∃ c rest rest', old = c :: rest ∧ new = c :: rest' ∧
        (isLineBreak c = true ∨ Agrees rest rest')) ∨
      ∃ c rest rest', (c = 'l' ∨ c = 'c') ∧ old = c :: rest ∧ new = 'v' :: rest' := by
  cases h with
  | nil => exact .inl ⟨rfl, rfl⟩
  | lineBreak hbreak => exact .inr (.inl ⟨_, _, _, rfl, rfl, .inl hbreak⟩)
  | cons hrest => exact .inr (.inl ⟨_, _, _, rfl, rfl, .inr hrest⟩)
  | word hword hrest =>
    rcases hword with rfl | rfl
    · exact .inr (.inr ⟨'l', _, _, .inl rfl, rfl, rfl⟩)
    · exact .inr (.inr ⟨'c', _, _, .inr rfl, rfl, rfl⟩)

/-- A class that cannot tell `var` from the words it stands for stops here and there. -/
theorem stops (h : Agrees old new) (hword : p 'v' = true → p 'l' = true ∧ p 'c' = true)
    (hstops : Stops p old) : Stops p new := by
  rcases h.head_cases with ⟨rfl, rfl⟩ | ⟨c, rest, rest', rfl, rfl, -⟩ |
    ⟨c, rest, rest', hc, rfl, rfl⟩
  · exact hstops
  · exact .cons (hstops c rest rfl)
  · refine .cons ?_
    cases hv : p 'v' with
    | false => rfl
    | true =>
      obtain ⟨hl, hc'⟩ := hword hv
      have hnot := hstops c rest rfl
      rcases hc with rfl | rfl
      · rw [hl] at hnot
        exact hnot
      · rw [hc'] at hnot
        exact hnot

/-- All that a class takes here it takes before a text that goes on alike. -/
theorem takeWhile_append {s : List Char} (h : Agrees old new)
    (hword : p 'v' = true → p 'l' = true ∧ p 'c' = true) (hs : s = s.takeWhile p ++ old) :
    (s.takeWhile p ++ new).takeWhile p = s.takeWhile p := by
  have hstops : Stops p old := Stops.of_takeWhile (by rw [← hs])
  exact (h.stops hword hstops).takeWhile_append fun c hc =>
    List.all_eq_true.mp List.all_takeWhile c hc

/-- A character that begins neither word begins both texts or none. -/
theorem cons_of_head (h : Agrees old new) (c : Char) (hc : c ∉ ['l', 'c', 'v'])
    (hbreak : isLineBreak c = false) : (∃ rest rest', old = c :: rest ∧ new = c :: rest' ∧
      Agrees rest rest') ∨ ((∀ rest, old ≠ c :: rest) ∧ ∀ rest, new ≠ c :: rest) := by
  rcases h.head_cases with ⟨rfl, rfl⟩ | ⟨d, rest, rest', rfl, rfl, hd⟩ |
    ⟨d, rest, rest', hd, rfl, rfl⟩
  · exact .inr ⟨fun _ => by simp, fun _ => by simp⟩
  · by_cases hcd : d = c
    · subst hcd
      rcases hd with hd | hd
      · rw [hbreak] at hd
        exact absurd hd (by simp)
      · exact .inl ⟨rest, rest', rfl, rfl, hd⟩
    · exact .inr ⟨fun _ heq => hcd (List.cons.inj heq).1, fun _ heq => hcd (List.cons.inj heq).1⟩
  · simp only [List.mem_cons, List.not_mem_nil, or_false, not_or] at hc
    refine .inr ⟨fun _ heq => ?_, fun _ heq => ?_⟩
    · obtain ⟨rfl, -⟩ := List.cons.inj heq
      exact hd.elim hc.1 hc.2.1
    · exact hc.2.2 (List.cons.inj heq).1.symm

/-- A class of characters in which neither line breaks nor the first letters of the words are. -/
def Apart (p : Char → Bool) : Prop := ∀ c ∈ ['l', 'c', 'v', '\n', '\r'], p c = false

/-- Such a class takes the same from both texts. -/
theorem takeWhile_eq (hp : Apart p) (h : Agrees old new) :
    old.takeWhile p = new.takeWhile p ∧ Agrees (old.dropWhile p) (new.dropWhile p) := by
  induction h with
  | nil => exact ⟨rfl, .nil⟩
  | @lineBreak c old new hbreak =>
    have hc : p c = false := by
      rcases isLineBreak_cases hbreak with rfl | rfl
      · exact hp '\n' (by simp)
      · exact hp '\r' (by simp)
    rw [List.takeWhile_cons_of_neg (by simp [hc]), List.takeWhile_cons_of_neg (by simp [hc]),
      List.dropWhile_cons_of_neg (by simp [hc]), List.dropWhile_cons_of_neg (by simp [hc])]
    exact ⟨rfl, .lineBreak hbreak⟩
  | @cons c old new hrest ih =>
    by_cases hc : p c = true
    · rw [List.takeWhile_cons_of_pos hc, List.takeWhile_cons_of_pos hc,
        List.dropWhile_cons_of_pos hc, List.dropWhile_cons_of_pos hc]
      exact ⟨congrArg (c :: ·) ih.1, ih.2⟩
    · rw [List.takeWhile_cons_of_neg hc, List.takeWhile_cons_of_neg hc,
        List.dropWhile_cons_of_neg hc, List.dropWhile_cons_of_neg hc]
      exact ⟨rfl, .cons hrest⟩
  | @word word old new hword hrest ih =>
    have hold : Stops p (word ++ old) := by
      rcases hword with rfl | rfl
      · exact .cons (hp 'l' (by simp))
      · exact .cons (hp 'c' (by simp))
    have hnew : Stops p ('v' :: 'a' :: 'r' :: new) := .cons (hp 'v' (by simp))
    rw [hold.takeWhile_eq, hnew.takeWhile_eq, hold.dropWhile_eq, hnew.dropWhile_eq]
    exact ⟨rfl, .word hword hrest⟩

end Agrees

end ScriptLink
