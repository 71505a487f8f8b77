import ScriptLink.Content.Printer
import ScriptLink.Proofs.Lookahead.Literal

/-!
# Texts in quotes

A path or a member goes into a script between double quotes. Whoever reads the script has to find the
closing quote where it was put, and whoever reads the string has to get the text back.

* **`Content.readText?`** — a reader of JSON strings. An escape can stand for half a character, so
  numbers are read first (`units?`), and then made characters (`characters?`).
* **`Content.QuotedAs`** — the three ways in which a character is written between quotes.
* **`Content.readText?_quote`** — a quoted text is read as that text.
* **`Quoted.body?_quote`** — the scanner takes a quoted text as a whole.
-/

namespace ScriptLink

namespace Content

/-! ## Reading a string -/

/-- The value of a hexadecimal digit. -/
def hexValue? (c : Char) : Option Nat :=
  if '0' ≤ c ∧ c ≤ '9' then some (c.toNat - '0'.toNat)
  else if 'a' ≤ c ∧ c ≤ 'f' then some (c.toNat - 'a'.toNat + 10)
  else if 'A' ≤ c ∧ c ≤ 'F' then some (c.toNat - 'A'.toNat + 10)
  else none

/-- The number that four hexadecimal digits write. -/
def hexNumber? (digits : List Char) : Option Nat :=
  digits.foldl (fun number digit => do return 16 * (← number) + (← hexValue? digit)) (some 0)

/-- What an escape of one letter stands for. -/
def letterValue? : Char → Option Nat
  | '\x22' => some 0x22
  | '\\' => some 0x5c
  | '/' => some 0x2f
  | 'b' => some 0x08
  | 'f' => some 0x0c
  | 'n' => some 0x0a
  | 'r' => some 0x0d
  | 't' => some 0x09
  | _ => none

/-- The numbers between an opening quote and the closing one, behind which the text ends: one for
each character and each escape. Controls have to be escaped. -/
def units? : List Char → Option (List Nat)
  | [] => none
  | c :: rest =>
    if c = '\x22' then if rest.isEmpty then some [] else none
    else if c = '\\' then
      match rest with
      | [] => none
      | letter :: after =>
        if letter = 'u' then
          match after with
          | d₁ :: d₂ :: d₃ :: d₄ :: later => do
            return (← hexNumber? [d₁, d₂, d₃, d₄]) :: (← units? later)
          | _ => none
        else do return (← letterValue? letter) :: (← units? after)
    else if c.toNat < 0x20 then none
    else do return c.toNat :: (← units? rest)

/-- The first half of a character beyond the first plane. -/
def isHighHalf (unit : Nat) : Bool := 0xd800 ≤ unit && unit < 0xdc00

def isLowHalf (unit : Nat) : Bool := 0xdc00 ≤ unit && unit < 0xe000

/-- The characters that the numbers stand for; a half of a character needs the other one. -/
def characters? : List Nat → Option (List Char)
  | [] => some []
  | unit :: rest =>
    if isHighHalf unit then
      match rest with
      | [] => none
      | low :: later =>
        if isLowHalf low then do
          return Char.ofNat (0x10000 + 0x400 * (unit - 0xd800) + (low - 0xdc00)) ::
            (← characters? later)
        else none
    else if isLowHalf unit then none
    else do return Char.ofNat unit :: (← characters? rest)

/-- The text that a JSON string holds, if the literal is one. -/
def readText? (literal : String) : Option String :=
  match literal.toList with
  | [] => none
  | opening :: rest =>
    if opening = '\x22' then ((units? rest).bind characters?).map String.ofList else none

/-! ## What is between the quotes -/

/-- How a character is written: by a letter behind a backslash, by its number, or as it is. -/
inductive QuotedAs (c : Char) : List Char → Prop where
  | letter {letter : Char} (hvalue : letterValue? letter = some c.toNat) :
      QuotedAs c ['\\', letter]
  | number {d₁ d₂ d₃ d₄ : Char} (hvalue : hexNumber? [d₁, d₂, d₃, d₄] = some c.toNat)
      (hdigits : ∀ digit ∈ [d₁, d₂, d₃, d₄], (hexValue? digit).isSome = true) :
      QuotedAs c ['\\', 'u', d₁, d₂, d₃, d₄]
  | plain (hquote : c ≠ '\x22') (hslash : c ≠ '\\') (hcontrol : 0x20 ≤ c.toNat) : QuotedAs c [c]

/-- The four digits that are written for a control. -/
theorem control_digits : ∀ value < 0x20,
    let digits := ['0', '0', hexDigit (value / 16), hexDigit (value % 16)]
    hexNumber? digits = some value ∧ ∀ digit ∈ digits, (hexValue? digit).isSome = true := by
  decide

theorem quotedAs_quoteChar (c : Char) : QuotedAs c (quoteChar c) := by
  unfold quoteChar
  split
  · next heq => exact .letter (by rw [heq]; rfl)
  split
  · next heq => exact .letter (by rw [heq]; rfl)
  split
  · next heq => exact .letter (by rw [heq]; rfl)
  split
  · next heq => exact .letter (by rw [heq]; rfl)
  split
  · next heq => exact .letter (by rw [heq]; rfl)
  split
  · next heq => exact .letter (by rw [heq]; rfl)
  split
  · next heq => exact .letter (by rw [heq]; rfl)
  split
  · next hcontrol =>
    obtain ⟨hvalue, hdigits⟩ := control_digits c.toNat hcontrol
    exact .number hvalue hdigits
  · next hquote hslash _ _ _ _ _ hcontrol =>
    exact .plain hquote hslash (Nat.le_of_not_lt hcontrol)

variable {c : Char} {written rest : List Char}

/-- What is written for a character is read as its number. -/
theorem QuotedAs.units?_append (h : QuotedAs c written) (rest : List Char) :
    units? (written ++ rest) = (units? rest).map (c.toNat :: ·) := by
  cases h with
  | @letter letter hvalue =>
    have hne : letter ≠ 'u' := fun heq => absurd (heq ▸ hvalue) (by simp [letterValue?])
    rw [List.cons_append, List.singleton_append, units?.eq_def]
    dsimp only
    rw [if_neg (by decide), if_pos rfl, if_neg hne, hvalue]
    cases units? rest <;> rfl
  | @number d₁ d₂ d₃ d₄ hvalue _ =>
    show (do return (← hexNumber? [d₁, d₂, d₃, d₄]) :: (← units? rest)) = _
    rw [hvalue]
    cases units? rest <;> rfl
  | plain hquote hslash hcontrol =>
    rw [List.singleton_append, units?.eq_def]
    dsimp only
    rw [if_neg hquote, if_neg hslash, if_neg (Nat.not_lt.mpr hcontrol)]
    cases units? rest <;> rfl

theorem units?_quoted (text : List Char) :
    units? (text.flatMap quoteChar ++ ['\x22']) = some (text.map Char.toNat) := by
  induction text with
  | nil => rfl
  | cons c rest ih =>
    rw [List.flatMap_cons, List.append_assoc, (quotedAs_quoteChar c).units?_append, ih]
    rfl

/-- No character is half a character. -/
theorem not_half (c : Char) : isHighHalf c.toNat = false ∧ isLowHalf c.toNat = false := by
  have hvalid : c.toNat < 0xd800 ∨ 0xdfff < c.toNat ∧ c.toNat < 0x110000 := c.valid
  unfold isHighHalf isLowHalf
  simp only [Bool.and_eq_false_iff, decide_eq_false_iff_not]
  omega

theorem characters?_toNat (text : List Char) : characters? (text.map Char.toNat) = some text := by
  induction text with
  | nil => rfl
  | cons c rest ih =>
    obtain ⟨hhigh, hlow⟩ := not_half c
    rw [List.map_cons, characters?.eq_def]
    dsimp only
    rw [hhigh, hlow, ih, Char.ofNat_toNat]
    rfl

/-- **A quoted text is read as that text.** -/
theorem readText?_quote (text : String) : readText? (quote text) = some text := by
  unfold readText? quote
  rw [String.toList_ofList]
  dsimp only
  rw [if_pos rfl, units?_quoted, Option.bind_some, characters?_toNat, Option.map_some,
    String.ofList_toList]

/-- Two escapes can stand for one character. -/
example : readText? "\x22a\\n\\ud83d\\ude00\x22" = some "a\n😀" := by decide +kernel

end Content

/-! ## Finding the closing quote -/

namespace Quoted

variable {c : Char} {written : List Char}

open Content

/-- A character that means nothing to the scanner is passed over. -/
theorem body?_plain (hquote : c ≠ '\x22') (hslash : c ≠ '\\') (hbreak : c ≠ '\n' ∧ c ≠ '\r')
    (rest : List Char) : body? '\x22' (c :: rest) = (body? '\x22' rest).map (c :: ·) := by
  rw [body?_cons '\x22' hslash, if_neg (by simp [hbreak]), if_neg (by simp [hquote])]

theorem plain_of_hexValue? {digit : Char} (h : (hexValue? digit).isSome = true) :
    digit ≠ '\x22' ∧ digit ≠ '\\' ∧ digit ≠ '\n' ∧ digit ≠ '\r' := by
  refine ⟨?_, ?_, ?_, ?_⟩ <;>
    (rintro rfl; exact absurd h (by decide))

/-- What is written for a character is passed over. -/
theorem body?_of_quotedAs (h : QuotedAs c written) (rest : List Char) :
    body? '\x22' (written ++ rest) = (body? '\x22' rest).map (written ++ ·) := by
  cases h with
  | letter _ => rfl
  | @number d₁ d₂ d₃ d₄ _ hdigits =>
    have hplain : ∀ digit ∈ [d₁, d₂, d₃, d₄], ∀ later,
        body? '\x22' (digit :: later) = (body? '\x22' later).map (digit :: ·) := by
      intro digit hmem later
      obtain ⟨hquote, hslash, hbreak⟩ := plain_of_hexValue? (hdigits digit hmem)
      exact body?_plain hquote hslash hbreak later
    simp only [List.mem_cons, List.not_mem_nil, or_false, forall_eq_or_imp, forall_eq] at hplain
    obtain ⟨h₁, h₂, h₃, h₄⟩ := hplain
    show (body? '\x22' (d₁ :: d₂ :: d₃ :: d₄ :: rest)).map ('\\' :: 'u' :: ·) = _
    rw [h₁, h₂, h₃, h₄]
    cases body? '\x22' rest <;> rfl
  | plain hquote hslash hcontrol =>
    refine body?_plain hquote hslash ⟨?_, ?_⟩ rest
    · rintro rfl
      exact absurd hcontrol (by decide)
    · rintro rfl
      exact absurd hcontrol (by decide)

/-- **The scanner takes a quoted text as a whole.** -/
theorem body?_quoted (text rest : List Char) :
    body? '\x22' (text.flatMap quoteChar ++ '\x22' :: rest) = some (text.flatMap quoteChar) := by
  induction text with
  | nil => rfl
  | cons c later ih =>
    rw [List.flatMap_cons, List.append_assoc, body?_of_quotedAs (quotedAs_quoteChar c), ih]
    rfl

end Quoted

end ScriptLink
