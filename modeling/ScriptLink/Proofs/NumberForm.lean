import ScriptLink.Proofs.DigitRun

/-!
# The grammar of numbers

The reader of numbers goes from one form to the next and gives up a form where it finds no digit.
Here each form is described by the parts it is made of, and has a reader of its own. The reader of
numbers takes the first form of the list that the text begins with.

* **`Form.Reads`** — the parts of each form, and **`Form.all`** the order in which they are tried.
* **`Form.read?_eq_some_iff`** — the reader of a form finds the numbers of that form.
* **`literal?_eq_findSome?`** — the reader of numbers is the first of these that finds one.
* **`number_is_first_form`** — the law.
-/

namespace ScriptLink.Number

variable {p : Char → Bool} {s rest text : List Char}

/-! ## The forms -/

/-- The radices that are named by a letter. -/
inductive Radix where
  | hex
  | octal
  | binary
  deriving DecidableEq

namespace Radix

def letters : Radix → List Char
  | hex => ['x', 'X']
  | octal => ['o', 'O']
  | binary => ['b', 'B']

def kind : Radix → NumberKind
  | hex => .hex
  | octal => .octal
  | binary => .binary

def isDigit : Radix → Char → Bool
  | hex => isHexDigit
  | octal => isOctalDigit
  | binary => isBinaryDigit

end Radix

/-- The forms of a number. -/
inductive Form where
  /-- a zero, the letter of the radix, digits, and perhaps the mark of a big integer -/
  | radix (radix : Radix)
  /-- a zero directly before octal digits, and perhaps the mark of a big integer -/
  | oldOctal
  /-- digits and an exponent -/
  | exponent
  /-- digits, a dot and digits, and perhaps an exponent -/
  | float
  /-- digits and the mark of a big integer -/
  | bigInt
  /-- digits -/
  | integer
  deriving DecidableEq

namespace Form

/-- The order in which the forms are tried. -/
def all : List Form :=
  [.radix .hex, .radix .octal, .radix .binary, .oldOctal, .exponent, .float, .bigInt, .integer]

def kind : Form → NumberKind
  | radix r => r.kind
  | oldOctal => .octal
  | exponent => .exponent
  | float => .float
  | bigInt => .bigInt
  | integer => .integer

/-- The text is a number of this form if the given rest follows it. -/
inductive Reads : Form → List Char → List Char → Prop where
  | radix {r : Radix} {letter : Char} {digits mark rest : List Char} (hletter : letter ∈ r.letters)
      (hdigits : Run r.isDigit digits (mark ++ rest)) (hmark : Optionally IsBigMark mark rest) :
      Reads (.radix r) ('0' :: letter :: (digits ++ mark)) rest
  | oldOctal {digits mark rest : List Char} (hdigits : Run isOctalDigit digits (mark ++ rest))
      (hmark : Optionally IsBigMark mark rest) : Reads .oldOctal ('0' :: (digits ++ mark)) rest
  | exponent {whole exponent rest : List Char} (hwhole : Run Char.isDigit whole (exponent ++ rest))
      (hexponent : Exponent exponent rest) : Reads .exponent (whole ++ exponent) rest
  | float {whole fraction exponent rest : List Char}
      (hwhole : Run Char.isDigit whole ('.' :: (fraction ++ (exponent ++ rest))))
      (hfraction : Run Char.isDigit fraction (exponent ++ rest))
      (hexponent : Optionally Exponent exponent rest) :
      Reads .float (whole ++ '.' :: (fraction ++ exponent)) rest
  | bigInt {whole rest : List Char} (hwhole : Run Char.isDigit whole ('n' :: rest)) :
      Reads .bigInt (whole ++ ['n']) rest
  | integer {whole rest : List Char} (hwhole : Run Char.isDigit whole rest) :
      Reads .integer whole rest

/-- The text `s` begins with a number of this form, and `text` is the number. -/
def Matches (form : Form) (s text : List Char) : Prop :=
  ∃ rest, s = text ++ rest ∧ form.Reads text rest

/-- The number is of this form, and of no form that is tried before. -/
structure IsFirst (form : Form) (s text : List Char) : Prop where
  reads : form.Matches s text
  first : ∃ before after, all = before ++ form :: after ∧
    ∀ other ∈ before, ∀ found, ¬ other.Matches s found

end Form

/-! ## One reader for each form -/

/-- The digits behind a lead, with the mark of a big integer if that comes next. -/
theorem radixForm?_eq_some_iff {form : NumberKind} {lead : List Char} (hbar : p '_' = false) :
    (radixForm? form p lead s).map Prod.snd = some text ↔
      ∃ digits mark rest, s = digits ++ (mark ++ rest) ∧ text = lead ++ (digits ++ mark) ∧
        Run p digits (mark ++ rest) ∧ Optionally IsBigMark mark rest := by
  constructor
  · intro h
    cases hfound : splitDigits p s with
    | mk digits tail =>
      unfold radixForm? at h
      rw [hfound] at h
      dsimp only at h
      split at h
      · exact absurd h (by simp)
      · next hne =>
        obtain rfl := Option.some.inj h
        obtain ⟨rfl, hrun⟩ := (splitDigits_eq_iff hbar hne).mp hfound
        obtain ⟨rest, hrest, hmark⟩ := optionally_bigMark tail
        refine ⟨digits, bigMark tail, rest, by rw [← hrest], ?_, by rwa [← hrest], hmark⟩
        exact List.append_assoc _ _ _
  · rintro ⟨digits, mark, rest, rfl, rfl, hrun, hmark⟩
    unfold radixForm?
    rw [hrun.splits hbar]
    dsimp only
    rw [if_neg hrun.groups.ne_nil, hmark.bigMark_eq, List.append_assoc]
    rfl

/-- The number behind the letter of a radix. -/
def Radix.read? (r : Radix) : List Char → Option (List Char)
  | '0' :: letter :: rest =>
    if letter ∈ r.letters then (radixForm? r.kind r.isDigit ['0', letter] rest).map Prod.snd
    else none
  | _ => none

/-- A zero before octal digits. -/
def oldOctal? : List Char → Option (List Char)
  | '0' :: rest => (radixForm? .octal isOctalDigit ['0'] rest).map Prod.snd
  | _ => none

/-- A run of decimal digits, and what `part?` finds behind it. -/
def behindWhole? (part? : List Char → Option (List Char)) (s : List Char) : Option (List Char) :=
  let (whole, rest) := splitDigits Char.isDigit s
  if whole = [] then none else (part? rest).map (whole ++ ·)

/-- A dot, digits, and an exponent if that comes next. -/
def fraction? : List Char → Option (List Char)
  | '.' :: after =>
    let (fraction, tail) := splitDigits Char.isDigit after
    if fraction = [] then none
    else some ('.' :: (fraction ++ ((splitExponent? tail).map Prod.fst).getD []))
  | _ => none

/-- The exponent that comes next. -/
def exponent? (s : List Char) : Option (List Char) := (splitExponent? s).map Prod.fst

/-- The mark of a big integer, if it comes next. -/
def bigMark? (s : List Char) : Option (List Char) :=
  if s.head? = some 'n' then some ['n'] else none

/-- The number of each form that the text begins with. -/
def Form.read? : Form → List Char → Option (List Char)
  | radix r => r.read?
  | oldOctal => oldOctal?
  | exponent => behindWhole? exponent?
  | float => behindWhole? fraction?
  | bigInt => behindWhole? bigMark?
  | integer => behindWhole? fun _ => some []

theorem behindWhole?_eq_some_iff {part? : List Char → Option (List Char)} :
    behindWhole? part? s = some text ↔
      ∃ whole part rest, s = whole ++ rest ∧ text = whole ++ part ∧ Run Char.isDigit whole rest ∧
        part? rest = some part := by
  constructor
  · intro h
    cases hfound : splitDigits Char.isDigit s with
    | mk whole rest =>
      unfold behindWhole? at h
      rw [hfound] at h
      dsimp only at h
      split at h
      · exact absurd h (by simp)
      · next hne =>
        obtain ⟨part, hpart, rfl⟩ := Option.map_eq_some_iff.mp h
        obtain ⟨rfl, hrun⟩ := (splitDigits_eq_iff (by decide) hne).mp hfound
        exact ⟨whole, part, rest, rfl, rfl, hrun, hpart⟩
  · rintro ⟨whole, part, rest, rfl, rfl, hrun, hpart⟩
    unfold behindWhole?
    rw [hrun.splits (by decide)]
    dsimp only
    rw [if_neg hrun.groups.ne_nil, hpart]
    rfl

theorem fraction?_eq_some_iff :
    fraction? s = some text ↔
      ∃ fraction exponent rest, s = '.' :: (fraction ++ (exponent ++ rest)) ∧
        text = '.' :: (fraction ++ exponent) ∧ Run Char.isDigit fraction (exponent ++ rest) ∧
        Optionally Exponent exponent rest := by
  constructor
  · intro h
    unfold fraction? at h
    split at h
    · next after =>
      cases hfound : splitDigits Char.isDigit after with
      | mk fraction tail =>
        rw [hfound] at h
        dsimp only at h
        split at h
        · exact absurd h (by simp)
        · next hne =>
          obtain rfl := Option.some.inj h
          obtain ⟨rfl, hrun⟩ := (splitDigits_eq_iff (by decide) hne).mp hfound
          obtain ⟨exponent, rest, rfl, hexponent, hoptional⟩ := optionally_exponent tail
          rw [← hexponent]
          exact ⟨fraction, exponent, rest, rfl, rfl, hrun, hoptional⟩
    · exact absurd h (by simp)
  · rintro ⟨fraction, exponent, rest, rfl, rfl, hrun, hoptional⟩
    rw [fraction?, hrun.splits (by decide)]
    dsimp only
    rw [if_neg hrun.groups.ne_nil, hoptional.exponent_eq]

theorem Radix.read?_eq_some_iff {r : Radix} :
    r.read? s = some text ↔ (Form.radix r).Matches s text := by
  have hbar : r.isDigit '_' = false := by cases r <;> decide
  constructor
  · intro h
    unfold read? at h
    split at h
    · next letter rest =>
      split at h
      · next hletter =>
        obtain ⟨digits, mark, behind, rfl, rfl, hrun, hmark⟩ := (radixForm?_eq_some_iff hbar).mp h
        have hreads : (Form.radix r).Reads ('0' :: letter :: (digits ++ mark)) behind :=
          .radix hletter hrun hmark
        exact ⟨behind, by simp, hreads⟩
      · exact absurd h (by simp)
    · exact absurd h (by simp)
  · rintro ⟨rest, rfl, hreads⟩
    cases hreads with
    | @radix r letter digits mark rest hletter hrun hmark =>
      have hform : (radixForm? r.kind r.isDigit ['0', letter] (digits ++ (mark ++ rest))).map
          Prod.snd = some (['0', letter] ++ (digits ++ mark)) :=
        (radixForm?_eq_some_iff hbar).mpr ⟨digits, mark, rest, rfl, rfl, hrun, hmark⟩
      rw [List.cons_append, List.cons_append, List.append_assoc]
      show (if letter ∈ r.letters then _ else none) = _
      rw [if_pos hletter, hform]
      rfl

theorem oldOctal?_eq_some_iff : oldOctal? s = some text ↔ Form.oldOctal.Matches s text := by
  constructor
  · intro h
    unfold oldOctal? at h
    split at h
    · next rest =>
      obtain ⟨digits, mark, behind, rfl, rfl, hrun, hmark⟩ :=
        (radixForm?_eq_some_iff (by decide)).mp h
      have hreads : Form.oldOctal.Reads ('0' :: (digits ++ mark)) behind := .oldOctal hrun hmark
      exact ⟨behind, by simp, hreads⟩
    · exact absurd h (by simp)
  · rintro ⟨rest, rfl, hreads⟩
    cases hreads with
    | @oldOctal digits mark rest hrun hmark =>
      rw [List.cons_append, List.append_assoc]
      exact (radixForm?_eq_some_iff (by decide)).mpr ⟨digits, mark, rest, rfl, rfl, hrun, hmark⟩

/-- **The reader of a form** finds what the text begins with. -/
theorem Form.read?_eq_some_iff {form : Form} :
    form.read? s = some text ↔ form.Matches s text := by
  cases form with
  | radix r => exact Radix.read?_eq_some_iff
  | oldOctal => exact oldOctal?_eq_some_iff
  | exponent =>
    rw [Form.read?, behindWhole?_eq_some_iff]
    constructor
    · rintro ⟨whole, part, rest, rfl, rfl, hrun, hpart⟩
      obtain ⟨⟨_, behind⟩, hfound, rfl⟩ := Option.map_eq_some_iff.mp hpart
      obtain ⟨rfl, hexponent⟩ := splitExponent?_eq_some_iff.mp hfound
      exact ⟨behind, (List.append_assoc _ _ _).symm, .exponent hrun hexponent⟩
    · rintro ⟨rest, rfl, hreads⟩
      cases hreads with
      | @exponent whole exponent rest hrun hexponent =>
        refine ⟨whole, exponent, exponent ++ rest, List.append_assoc _ _ _, rfl, hrun, ?_⟩
        rw [exponent?, splitExponent?_of_exponent hexponent]
        rfl
  | float =>
    rw [Form.read?, behindWhole?_eq_some_iff]
    constructor
    · rintro ⟨whole, part, rest, rfl, rfl, hrun, hpart⟩
      obtain ⟨fraction, exponent, behind, rfl, rfl, hfraction, hexponent⟩ :=
        fraction?_eq_some_iff.mp hpart
      exact ⟨behind, by simp, .float hrun hfraction hexponent⟩
    · rintro ⟨rest, rfl, hreads⟩
      cases hreads with
      | @float whole fraction exponent rest hrun hfraction hexponent =>
        exact ⟨whole, _, _, by simp, rfl, hrun, fraction?_eq_some_iff.mpr
          ⟨fraction, exponent, rest, rfl, rfl, hfraction, hexponent⟩⟩
  | bigInt =>
    rw [Form.read?, behindWhole?_eq_some_iff]
    constructor
    · rintro ⟨whole, part, rest, rfl, rfl, hrun, hpart⟩
      unfold bigMark? at hpart
      split at hpart
      · next hhead =>
        obtain rfl := Option.some.inj hpart
        obtain ⟨behind, rfl⟩ := List.head?_eq_some_iff.mp hhead
        exact ⟨behind, by simp, .bigInt hrun⟩
      · exact absurd hpart (by simp)
    · rintro ⟨rest, rfl, hreads⟩
      cases hreads with
      | @bigInt whole rest hrun => exact ⟨whole, ['n'], 'n' :: rest, by simp, rfl, hrun, rfl⟩
  | integer =>
    rw [Form.read?, behindWhole?_eq_some_iff]
    constructor
    · rintro ⟨whole, part, rest, rfl, rfl, hrun, hpart⟩
      obtain rfl := Option.some.inj hpart
      rw [List.append_nil]
      exact ⟨rest, rfl, .integer hrun⟩
    · rintro ⟨rest, rfl, hreads⟩
      cases hreads with
      | integer hrun => exact ⟨text, [], rest, rfl, (List.append_nil _).symm, hrun, rfl⟩

/-! ## The order of the forms -/

theorem Form.Matches.head {form : Form} (h : form.Matches s text) :
    ∃ c rest, s = c :: rest ∧ c.isDigit = true := by
  obtain ⟨rest, rfl, hreads⟩ := h
  cases hreads with
  | radix => exact ⟨'0', _, rfl, by decide⟩
  | oldOctal => exact ⟨'0', _, rfl, by decide⟩
  | exponent hwhole => exact head_append (head_append hwhole.groups.head _) _
  | float hwhole => exact head_append (head_append hwhole.groups.head _) _
  | bigInt hwhole => exact head_append (head_append hwhole.groups.head _) _
  | integer hwhole => exact head_append hwhole.groups.head _

/-- The number of a form, with the kind of the form. -/
def Form.literal? (s : List Char) (form : Form) : Option (NumberKind × List Char) :=
  (form.read? s).map (form.kind, ·)

theorem radixForm?_eq_map (form : NumberKind) (p : Char → Bool) (lead s : List Char) :
    ((radixForm? form p lead s).map Prod.snd).map (form, ·) = radixForm? form p lead s := by
  unfold radixForm?
  dsimp only
  split
  · rfl
  · rfl

theorem radixForm?_of_stops {form : NumberKind} {lead : List Char} (h : Stops p s) :
    radixForm? form p lead s = none := by
  unfold radixForm?
  rw [splitDigits_of_stops h]
  rfl

/-- A letter names one radix. -/
theorem Radix.eq_of_mem {letter : Char} {r other : Radix} (h : letter ∈ r.letters)
    (hother : letter ∈ other.letters) : r = other := by
  have hall : ∀ letter ∈ r.letters, letter ∈ other.letters → r = other := by
    cases r <;> cases other <;> decide
  exact hall letter h hother

theorem Radix.not_octalDigit {letter : Char} {r : Radix} (h : letter ∈ r.letters) :
    isOctalDigit letter = false := by
  have hall : ∀ letter ∈ r.letters, isOctalDigit letter = false := by cases r <;> decide
  exact hall letter h

/-- Behind the letter of a radix the digits of that radix are read. -/
theorem radixLiteral?_of_letter {letter : Char} {r : Radix} (h : letter ∈ r.letters)
    (rest : List Char) :
    radixLiteral? ('0' :: letter :: rest) = radixForm? r.kind r.isDigit ['0', letter] rest := by
  have hall : ∀ letter ∈ r.letters, radixLiteral? ('0' :: letter :: rest) =
      radixForm? r.kind r.isDigit ['0', letter] rest := by
    cases r <;> simp [Radix.letters, Radix.kind, Radix.isDigit, radixLiteral?_zero]
  exact hall letter h

/-- Without the letter of a radix the zero may begin an octal number. -/
theorem radixLiteral?_of_no_letter {letter : Char} (h : ∀ r : Radix, letter ∉ r.letters)
    (rest : List Char) :
    radixLiteral? ('0' :: letter :: rest) =
      radixForm? .octal isOctalDigit ['0'] (letter :: rest) := by
  have hhex : ¬ (letter == 'x' || letter == 'X') = true := by
    simpa [Radix.letters] using h .hex
  have hoctal : ¬ (letter == 'o' || letter == 'O') = true := by
    simpa [Radix.letters] using h .octal
  have hbinary : ¬ (letter == 'b' || letter == 'B') = true := by
    simpa [Radix.letters] using h .binary
  rw [radixLiteral?_zero, if_neg hhex, if_neg hoctal, if_neg hbinary]
  by_cases hdigit : isOctalDigit letter = true
  · rw [if_pos hdigit]
  · rw [if_neg hdigit, radixForm?_of_stops (.cons (Bool.eq_false_iff.mpr hdigit))]

namespace Form

theorem literal?_radix {letter : Char} {r : Radix} (h : letter ∈ r.letters) (rest : List Char) :
    literal? ('0' :: letter :: rest) (.radix r) =
      radixForm? r.kind r.isDigit ['0', letter] rest := by
  show Option.map _ (if letter ∈ r.letters then _ else none) = _
  rw [if_pos h]
  exact radixForm?_eq_map _ _ _ _

theorem literal?_radix_eq_none {letter : Char} {r : Radix} (h : letter ∉ r.letters)
    (rest : List Char) : literal? ('0' :: letter :: rest) (.radix r) = none := by
  show Option.map _ (if letter ∈ r.letters then _ else none) = _
  rw [if_neg h]
  rfl

theorem literal?_oldOctal (rest : List Char) :
    literal? ('0' :: rest) .oldOctal = radixForm? .octal isOctalDigit ['0'] rest :=
  radixForm?_eq_map _ _ _ _

end Form

/-- A letter of a radix is no octal digit, so the forms with a radix exclude each other and their
order does not count. -/
theorem radixLiteral?_eq_findSome? (s : List Char) :
    radixLiteral? s =
      [Form.radix .hex, .radix .octal, .radix .binary, .oldOctal].findSome? (Form.literal? s) := by
  cases s with
  | nil => rfl
  | cons c rest =>
    by_cases hc : c = '0'
    · subst hc
      cases rest with
      | nil => rfl
      | cons letter rest =>
        by_cases hletter : ∃ r : Radix, letter ∈ r.letters
        · obtain ⟨r, hr⟩ := hletter
          have hother (other : Radix) (hne : r ≠ other) :
              Form.literal? ('0' :: letter :: rest) (.radix other) = none :=
            Form.literal?_radix_eq_none (fun hmem => hne (Radix.eq_of_mem hr hmem)) rest
          have hold : Form.literal? ('0' :: letter :: rest) .oldOctal = none := by
            rw [Form.literal?_oldOctal, radixForm?_of_stops (.cons (Radix.not_octalDigit hr))]
          rw [radixLiteral?_of_letter hr, ← Form.literal?_radix hr]
          -- of the four forms only that of the letter is left
          cases r with
          | hex =>
            simp only [List.findSome?, hother .octal (by decide), hother .binary (by decide), hold]
            cases Form.literal? ('0' :: letter :: rest) (.radix .hex) <;> rfl
          | octal =>
            simp only [List.findSome?, hother .hex (by decide), hother .binary (by decide), hold]
            cases Form.literal? ('0' :: letter :: rest) (.radix .octal) <;> rfl
          | binary =>
            simp only [List.findSome?, hother .hex (by decide), hother .octal (by decide), hold]
            cases Form.literal? ('0' :: letter :: rest) (.radix .binary) <;> rfl
        · have hnone (r : Radix) : Form.literal? ('0' :: letter :: rest) (.radix r) = none :=
            Form.literal?_radix_eq_none (fun hmem => hletter ⟨r, hmem⟩) rest
          rw [radixLiteral?_of_no_letter (not_exists.mp hletter), ← Form.literal?_oldOctal]
          simp only [List.findSome?, hnone]
          cases Form.literal? ('0' :: letter :: rest) .oldOctal <;> rfl
    · rw [radixLiteral?_of_ne_zero hc]
      refine (List.findSome?_eq_none_iff.mpr fun form hform => ?_).symm
      refine Option.map_eq_none_iff.mpr (Option.eq_none_iff_forall_ne_some.mpr fun text hread => ?_)
      obtain ⟨behind, heq, hreads⟩ := Form.read?_eq_some_iff.mp hread
      -- each of these forms begins with a zero
      cases hreads with
      | radix => exact hc (List.cons.inj heq).1
      | oldOctal => exact hc (List.cons.inj heq).1
      | _ => exact absurd hform (by simp)

/-- The order of the decimal forms is the order of the reader. -/
theorem decimalLiteral_eq_findSome? {c : Char} (hc : c.isDigit = true) (rest : List Char) :
    some (decimalLiteral (c :: rest)) =
      [Form.exponent, .float, .bigInt, .integer].findSome? (Form.literal? (c :: rest)) := by
  cases hfound : splitDigits Char.isDigit (c :: rest) with
  | mk whole behind =>
    have hne := whole_ne_nil hc hfound
    have hliteral (form : Form) (part? : List Char → Option (List Char))
        (hread : form.read? = behindWhole? part?) : form.literal? (c :: rest) =
          (part? behind).map fun part => (form.kind, whole ++ part) := by
      unfold Form.literal?
      rw [hread, behindWhole?, hfound]
      dsimp only
      rw [if_neg hne, Option.map_map]
      rfl
    simp only [List.findSome?, hliteral .exponent _ rfl, hliteral .float _ rfl,
      hliteral .bigInt _ rfl, hliteral .integer (fun _ => some []) rfl]
    unfold decimalLiteral exponent?
    rw [hfound]
    dsimp only
    -- all four forms begin with the same digits, so what counts is what stands behind them
    cases splitExponent? behind with
    | some found => rfl
    | none =>
      dsimp only [Option.map_none]
      split
      · next after =>
        rw [fraction?]
        dsimp only
        by_cases hfraction : (splitDigits Char.isDigit after).1 = []
        · -- a dot without digits is left, and it is no mark of a big integer
          rw [if_pos hfraction, if_pos hfraction]
          show some (NumberKind.integer, whole) = some (.integer, whole ++ [])
          rw [List.append_nil]
        · rw [if_neg hfraction, if_neg hfraction]
          rfl
      · rfl
      · next hdot hmark =>
        have hfraction : fraction? behind = none := by
          unfold fraction?
          split
          · next after => exact absurd rfl (hdot after)
          · rfl
        have hbig : bigMark? behind = none := by
          refine if_neg fun hhead => ?_
          obtain ⟨later, rfl⟩ := List.head?_eq_some_iff.mp hhead
          exact hmark later rfl
        rw [hfraction, hbig]
        show some (NumberKind.integer, whole) = some (.integer, whole ++ [])
        rw [List.append_nil]

/-- **The reader takes the first form** that the text begins with. -/
theorem literal?_eq_findSome? (s : List Char) :
    literal? s = Form.all.findSome? (Form.literal? s) := by
  have hnone (h : ∀ c rest, s = c :: rest → c.isDigit = false) :
      Form.all.findSome? (Form.literal? s) = none := by
    refine List.findSome?_eq_none_iff.mpr fun form _ => Option.map_eq_none_iff.mpr ?_
    cases hread : form.read? s with
    | none => rfl
    | some text =>
      obtain ⟨c, rest, hs, hc⟩ := (Form.read?_eq_some_iff.mp hread).head
      exact absurd (hc.symm.trans (h c rest hs)) (by simp)
  cases s with
  | nil => exact (hnone fun _ _ heq => absurd heq (by simp)).symm
  | cons c rest =>
    unfold literal?
    dsimp only
    split
    · next hc =>
      have hall : Form.all = [.radix .hex, .radix .octal, .radix .binary, .oldOctal] ++
        [.exponent, .float, .bigInt, .integer] := rfl
      rw [hall, List.findSome?_append, ← radixLiteral?_eq_findSome?,
        ← decimalLiteral_eq_findSome? hc]
      cases radixLiteral? (c :: rest) <;> rfl
    · next hc =>
      refine (hnone fun d later heq => ?_).symm
      rw [← (List.cons.inj heq).1]
      exact Bool.eq_false_iff.mpr hc

/-! ## Underscores -/

/-- The digits of a number of the given kind. -/
def digitOf : NumberKind → Char → Bool
  | .hex => isHexDigit
  | .octal => isOctalDigit
  | .binary => isBinaryDigit
  | _ => Char.isDigit

namespace Form.Reads

variable {form : Form}

/-- **Underscores stand inside the runs of a number**, so none is next to a letter, a dot or a sign,
and none is last. -/
theorem separated (h : form.Reads text rest) : Separated (digitOf form.kind) text := by
  cases h with
  | @radix r letter digits mark rest hletter hdigits hmark =>
    have hbar : r.isDigit '_' = false := by cases r <;> decide
    have hlead : ∀ letter ∈ r.letters, '_' ∉ ['0', letter] := by cases r <;> decide
    have hclass : digitOf (Form.radix r).kind = r.isDigit := by cases r <;> rfl
    rw [hclass]
    exact (Separated.of_not_mem (hlead letter hletter)).append
      ((hdigits.separated hbar).append hmark.separated_bigMark)
  | @oldOctal digits mark rest hdigits hmark =>
    have hlead : Separated isOctalDigit ['0'] := .of_not_mem (by decide)
    exact hlead.append ((hdigits.separated (by decide)).append hmark.separated_bigMark)
  | exponent hwhole hexponent => exact (hwhole.separated (by decide)).append hexponent.separated
  | @float whole fraction exponent rest hwhole hfraction hexponent =>
    have hdot : Separated Char.isDigit ['.'] := .of_not_mem (by decide)
    exact (hwhole.separated (by decide)).append
      (hdot.append ((hfraction.separated (by decide)).append hexponent.separated_exponent))
  | bigInt hwhole =>
    exact (hwhole.separated (by decide)).append (.of_not_mem (by decide))
  | integer hwhole => exact hwhole.separated (by decide)

/-- Behind the zero that begins a number with a radix stands a letter or a digit. -/
theorem not_underscore_second (h : form.Reads text rest)
    (hkind : form.kind = .hex ∨ form.kind = .octal ∨ form.kind = .binary) (later : List Char) :
    text ≠ '0' :: '_' :: later := by
  cases h with
  | @radix r letter digits mark rest hletter hdigits hmark =>
    have hlead : ∀ letter ∈ r.letters, letter ≠ '_' := by cases r <;> decide
    exact fun heq => hlead letter hletter (List.cons.inj (List.cons.inj heq).2).1
  | @oldOctal digits mark rest hdigits hmark =>
    obtain ⟨c, behind, rfl, hc⟩ := hdigits.groups.head
    intro heq
    rw [(List.cons.inj (List.cons.inj heq).2).1] at hc
    exact absurd hc (by decide)
  | exponent | float | bigInt | integer => exact absurd hkind (by decide)

end Form.Reads

/-! ## The law -/

/-- **Numbers follow their grammar.** There is no number exactly if the text does not begin with a
decimal digit. Else the number has the kind and the text of the first form in `Form.all` that the
text begins with, where digits come in groups with underscores between them and every run of digits
is as long as possible. An underscore stands between digits or other underscores of its run, so it
is never last and never next to a prefix, a dot, an exponent or the mark of a big integer. -/
theorem number_is_first_form (s : List Char) :
    (literal? s = none ↔ ∀ c, s.head? = some c → c.isDigit = false) ∧
    (∀ kind text, literal? s = some (kind, text) ↔
      ∃ form : Form, form.kind = kind ∧ form.IsFirst s text) ∧
    ∀ kind text, literal? s = some (kind, text) →
      Separated (digitOf kind) text ∧
      (kind = .hex ∨ kind = .octal ∨ kind = .binary → ∀ later, text ≠ '0' :: '_' :: later) := by
  have hfirst (kind : NumberKind) (text : List Char) : literal? s = some (kind, text) ↔
      ∃ form : Form, form.kind = kind ∧ form.IsFirst s text := by
    rw [literal?_eq_findSome?, List.findSome?_eq_some_iff]
    constructor
    · rintro ⟨before, form, after, hall, hform, hbefore⟩
      obtain ⟨found, hread, heq⟩ := Option.map_eq_some_iff.mp hform
      obtain ⟨rfl, rfl⟩ := Prod.mk.inj heq
      refine ⟨form, rfl, Form.read?_eq_some_iff.mp hread, before, after, hall, ?_⟩
      intro other hmem found hmatches
      have hnone := Option.map_eq_none_iff.mp (hbefore other hmem)
      rw [Form.read?_eq_some_iff.mpr hmatches] at hnone
      exact absurd hnone (by simp)
    · rintro ⟨form, rfl, hreads, before, after, hall, hbefore⟩
      refine ⟨before, form, after, hall, ?_, fun other hmem => ?_⟩
      · exact Option.map_eq_some_iff.mpr ⟨text, Form.read?_eq_some_iff.mpr hreads, rfl⟩
      · refine Option.map_eq_none_iff.mpr (Option.eq_none_iff_forall_ne_some.mpr ?_)
        exact fun found hread => hbefore other hmem found (Form.read?_eq_some_iff.mp hread)
  refine ⟨?_, hfirst, ?_⟩
  · cases s with
    | nil => exact iff_of_true rfl fun _ h => absurd h (by simp)
    | cons c rest => simp [literal?]
  · intro kind text h
    obtain ⟨form, rfl, hisFirst⟩ := (hfirst kind text).mp h
    obtain ⟨rest, rfl, hreads⟩ := hisFirst.reads
    exact ⟨hreads.separated, hreads.not_underscore_second⟩

/-- A hexadecimal number with an underscore and the mark of a big integer. -/
theorem hex_number_has_first_form :
    let s := ['0', 'x', 'F', '_', '1', 'n', ';']
    let text := ['0', 'x', 'F', '_', '1', 'n']
    literal? s = some (.hex, text) ∧ (∃ form : Form, form.kind = .hex ∧ form.IsFirst s text) ∧
      Separated (digitOf .hex) text := by
  intro s text
  have hread : literal? s = some (.hex, text) := by decide +kernel
  obtain ⟨-, hfirst, hseparated⟩ := number_is_first_form s
  exact ⟨hread, (hfirst .hex text).mp hread, (hseparated .hex text hread).1⟩

/-- Without a digit behind it a letter names no radix, and an underscore at the end is left. -/
example : literal? ['0', 'x', '_', '1'] = some (.integer, ['0']) ∧
    literal? ['0', '_', '_', '7', '_', '.'] = some (.integer, ['0', '_', '_', '7']) := by
  decide +kernel

end ScriptLink.Number
