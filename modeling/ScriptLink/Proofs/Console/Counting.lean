import ScriptLink.Console.Completeness
import ScriptLink.Proofs.Lookahead.Ending
import ScriptLink.Proofs.TemplateNesting

/-!
# What counting characters makes of a text

The console counts brackets and quotes on the characters, one after the other. Here it is told what
becomes of the count over a stretch of text, with anything behind it.

* **`Console.Unmarked`** — text without brackets and quotes, over which the count stays.
* **`Console.Harmless`** — text without quotes that does not open more brackets than it closes. The
  count need not come back to where it was: a closing bracket that does not fit ends it.
* **`Console.isBalancedFrom_body`**, **`Console.isBalancedFrom_quiet`** — strings and template text
  are skipped as the scanner skips them, escapes included.
* **`Console.exists_escaped`** — text without a back-tick, met inside a template.
-/

namespace ScriptLink.Console

variable {expected : List Char} {text rest : List Char} {c : Char}

/-! ## Single characters -/

def isOpener (c : Char) : Bool := (closerOf? c).isSome

theorem isBalancedFrom_quote (hc : isQuote c = true) :
    isBalancedFrom expected none false (c :: rest) =
      isBalancedFrom expected (some c) false rest := by
  rw [isBalancedFrom.eq_def]
  exact if_pos hc

theorem isBalancedFrom_opener {closer : Char} (hquote : isQuote c = false)
    (hcloser : isCloser c = false) (hc : closerOf? c = some closer) :
    isBalancedFrom expected none false (c :: rest) =
      isBalancedFrom (closer :: expected) none false rest := by
  rw [isBalancedFrom.eq_def]
  dsimp only
  rw [if_neg Bool.false_ne_true, if_neg (ne_true_of_eq_false hquote),
    if_neg (ne_true_of_eq_false hcloser), hc]
  rfl

/-- A closing bracket takes the one that is due away, or ends the count. -/
theorem isBalancedFrom_closer (hquote : isQuote c = false) (hc : isCloser c = true)
    (h : ∀ due others, expected = due :: others → isBalancedFrom others none false rest = true) :
    isBalancedFrom expected none false (c :: rest) = true := by
  rw [isBalancedFrom.eq_def]
  dsimp only
  rw [if_neg Bool.false_ne_true, if_neg (ne_true_of_eq_false hquote), if_pos hc]
  cases expected with
  | nil => rfl
  | cons due others =>
    dsimp only
    split
    · exact h due others rfl
    · rfl

theorem isBalancedFrom_plain (hquote : isQuote c = false) (hcloser : isCloser c = false)
    (hopener : closerOf? c = none) :
    isBalancedFrom expected none false (c :: rest) = isBalancedFrom expected none false rest := by
  rw [isBalancedFrom.eq_def]
  dsimp only
  rw [if_neg Bool.false_ne_true, if_neg (ne_true_of_eq_false hquote),
    if_neg (ne_true_of_eq_false hcloser), hopener]
  rfl

/-! ## Outside of quotes -/

/-- There is neither a bracket nor a quote in the text. -/
def Unmarked (text : List Char) : Prop :=
  ∀ c ∈ text, isQuote c = false ∧ isCloser c = false ∧ closerOf? c = none

/-- The brackets and the quotes. -/
def marks : List Char :=
  ['(', ')', '[', ']', '\x7b', '\x7d', '\x22', '\x27', '\x60']

theorem unmarked_of_not_mem (h : c ∉ marks) :
    isQuote c = false ∧ isCloser c = false ∧ closerOf? c = none := by
  have hne {d : Char} (hd : d ∈ marks) : c ≠ d := fun heq => h (heq ▸ hd)
  unfold isQuote isCloser closerOf?
  refine ⟨?_, ?_, ?_⟩
  · simp [hne (d := '\x22') (by decide), hne (d := '\x27') (by decide),
      hne (d := '\x60') (by decide)]
  · simp [hne (d := ')') (by decide), hne (d := ']') (by decide), hne (d := '\x7d') (by decide)]
  · split
    · exact absurd rfl (hne (by decide))
    · exact absurd rfl (hne (by decide))
    · exact absurd rfl (hne (by decide))
    · rfl

theorem Unmarked.singleton (h : c ∉ marks) : Unmarked [c] := by
  intro d hd
  rw [List.mem_singleton.mp hd]
  exact unmarked_of_not_mem h

/-- Characters of a class without the marks. -/
theorem Unmarked.of_class {p : Char → Bool} (hp : ∀ mark ∈ marks, p mark = false)
    (h : ∀ c ∈ text, p c = true) : Unmarked text := by
  intro c hc
  refine unmarked_of_not_mem fun hmark => ?_
  have hpc := h c hc
  rw [hp c hmark] at hpc
  exact absurd hpc (by simp)

/-- There is no quote in the text, and it does not open more brackets than it closes. -/
def Harmless (text : List Char) : Prop :=
  (∀ c ∈ text, isQuote c = false) ∧ text.countP isOpener ≤ text.countP isCloser

instance (text : List Char) : Decidable (Harmless text) := inferInstanceAs (Decidable (_ ∧ _))

theorem isBalancedFrom_unmarked (h : Unmarked text) :
    isBalancedFrom expected none false (text ++ rest) =
      isBalancedFrom expected none false rest := by
  induction text with
  | nil => rfl
  | cons c later ih =>
    obtain ⟨hquote, hcloser, hopener⟩ := h c List.mem_cons_self
    rw [List.cons_append, isBalancedFrom_plain hquote hcloser hopener]
    exact ih fun d hd => h d (List.mem_cons_of_mem _ hd)

/-- An opener is no closer. -/
theorem isCloser_of_closerOf? {closer : Char} (h : closerOf? c = some closer) :
    isCloser c = false := by
  unfold closerOf? at h
  split at h
  · rfl
  · rfl
  · rfl
  · exact absurd h (by simp)

/-- Over text without quotes the number of brackets that are due changes by those that the text opens
and closes, unless the count ends. -/
theorem isBalancedFrom_counted (hquotes : ∀ c ∈ text, isQuote c = false)
    (h : ∀ due : List Char,
      due.length + text.countP isCloser ≤ expected.length + text.countP isOpener →
      isBalancedFrom due none false rest = true) :
    isBalancedFrom expected none false (text ++ rest) = true := by
  induction text generalizing expected with
  | nil => exact h expected (Nat.le_refl _)
  | cons c later ih =>
    have hquote := hquotes c List.mem_cons_self
    have hlater : ∀ d ∈ later, isQuote d = false :=
      fun d hd => hquotes d (List.mem_cons_of_mem _ hd)
    rw [List.countP_cons, List.countP_cons] at h
    rw [List.cons_append]
    cases hopener : closerOf? c with
    | some closer =>
      have hcloser := isCloser_of_closerOf? hopener
      rw [isBalancedFrom_opener hquote hcloser hopener]
      refine ih hlater fun due hdue => h due ?_
      have hisOpener : isOpener c = true := by simp [isOpener, hopener]
      rw [hcloser, hisOpener, if_neg Bool.false_ne_true, if_pos rfl]
      rw [List.length_cons] at hdue
      omega
    | none =>
      have hnoOpener : isOpener c = false := by simp [isOpener, hopener]
      cases hcloser : isCloser c with
      | true =>
        refine isBalancedFrom_closer hquote hcloser ?_
        rintro top others rfl
        refine ih hlater fun due hdue => h due ?_
        rw [hcloser, hnoOpener, if_pos rfl, if_neg Bool.false_ne_true, List.length_cons]
        omega
      | false =>
        rw [isBalancedFrom_plain hquote hcloser hopener]
        refine ih hlater fun due hdue => h due ?_
        rw [hcloser, hnoOpener, if_neg Bool.false_ne_true]
        omega

/-- Harmless text leaves no more brackets open than there were. -/
theorem isBalancedFrom_harmless (htext : Harmless text)
    (h : ∀ due : List Char, due.length ≤ expected.length →
      isBalancedFrom due none false rest = true) :
    isBalancedFrom expected none false (text ++ rest) = true := by
  refine isBalancedFrom_counted htext.1 fun due hdue => h due ?_
  have := htext.2
  omega

/-! ## Inside quotes -/

theorem isBalancedFrom_escape {quote : Char} :
    isBalancedFrom expected (some quote) false ('\\' :: c :: rest) =
      isBalancedFrom expected (some quote) false rest := by
  rw [isBalancedFrom, if_neg Bool.false_ne_true, if_pos rfl, isBalancedFrom, if_pos rfl]

theorem isBalancedFrom_inside {quote : Char} (hslash : c ≠ '\\') (hquote : c ≠ quote) :
    isBalancedFrom expected (some quote) false (c :: rest) =
      isBalancedFrom expected (some quote) false rest := by
  rw [isBalancedFrom, if_neg Bool.false_ne_true, if_neg hslash, if_neg hquote]

theorem isBalancedFrom_end {quote : Char} (hslash : quote ≠ '\\') :
    isBalancedFrom expected (some quote) false (quote :: rest) =
      isBalancedFrom expected none false rest := by
  rw [isBalancedFrom, if_neg Bool.false_ne_true, if_neg hslash, if_pos rfl]

/-- A string ends where the scanner ends it. -/
theorem isBalancedFrom_body {quote : Char} (hslash : quote ≠ '\\') {s body : List Char}
    (h : Quoted.body? quote s = some body) :
    isBalancedFrom expected (some quote) false s =
      isBalancedFrom expected none false (s.drop (body.length + 1)) := by
  fun_induction Quoted.body? quote s generalizing body with
  | case1 => exact absurd h (by simp)
  | case2 => exact absurd h (by simp)
  | case3 c rest ih =>
    obtain ⟨later, hlater, rfl⟩ := Option.map_eq_some_iff.mp h
    rw [isBalancedFrom_escape, ih hlater]
    rfl
  | case4 => exact absurd h (by simp)
  | case5 c rest _ _ _ hquote =>
    obtain rfl := Option.some.inj h
    obtain rfl := eq_of_beq hquote
    exact isBalancedFrom_end hslash
  | case6 c rest hend hescape _ hquote ih =>
    obtain ⟨later, hlater, rfl⟩ := Option.map_eq_some_iff.mp h
    have hc := RegExp.ne_backslash hend hescape
    rw [isBalancedFrom_inside hc fun heq => hquote (beq_iff_eq.mpr heq), ih hlater]
    rfl

/-- Quiet text does not end a template. -/
theorem isBalancedFrom_quiet (h : Template.Quiet text) :
    isBalancedFrom expected (some '\x60') false (text ++ rest) =
      isBalancedFrom expected (some '\x60') false rest := by
  induction h with
  | nil => rfl
  | escaped c hrest ih => exact isBalancedFrom_escape.trans ih
  | plain hslash htick hopener hrest ih => exact (isBalancedFrom_inside hslash htick).trans ih

/-- Without a back-tick the count stays inside the template; a backslash at the end may take the next
character along. -/
theorem exists_escaped (expected rest : List Char) (htext : '\x60' ∉ text) (escaped : Bool) :
    ∃ later, isBalancedFrom expected (some '\x60') escaped (text ++ rest) =
      isBalancedFrom expected (some '\x60') later rest := by
  induction text generalizing escaped with
  | nil => exact ⟨escaped, rfl⟩
  | cons c behind ih =>
    obtain ⟨hne, hbehind⟩ := List.ne_and_not_mem_of_not_mem_cons htext
    rw [List.cons_append, isBalancedFrom]
    cases escaped with
    | true => exact ih hbehind false
    | false =>
      rw [if_neg Bool.false_ne_true]
      by_cases hslash : c = '\\'
      · rw [if_pos hslash]
        exact ih hbehind true
      · rw [if_neg hslash, if_neg (Ne.symm hne)]
        exact ih hbehind false

end ScriptLink.Console
