import ScriptLink.Proofs.Lookahead.Ending
import ScriptLink.Proofs.Tokenization

/-!
# The form of regular expressions

A slash begins a regular expression or a division, and the matcher walks along the body, the flags
and the blanks behind them to find out. Here is the form that it accepts: units up to a slash, as
many flags as there are, and an end behind which an expression can stop. No text has this form in
two ways.

* **`Atom`** — a character of the body, or a backslash with the character it takes along.
* **`Form`** — a regular expression at the front of a text, part by part.
* **`Form.unique`** — a text has the form in one way at most.
* **`regexp_is_exact`** — the matcher finds exactly what has the form.
-/

namespace ScriptLink.RegExp

/-- A unit of a body: a character that stands for itself, or one behind a backslash. -/
inductive Atom where
  | plain (c : Char)
  | escaped (c : Char)
  deriving DecidableEq

namespace Atom

def text : Atom → List Char
  | plain c => [c]
  | escaped c => ['\\', c]

/-- Whether the unit can be part of a body. Neither kind goes across a line break. -/
def Fits : Atom → Prop
  | plain c => c ∉ ['\\', '/', '\n', '\r']
  | escaped c => c ∉ ['\n', '\r']

end Atom

/-- The flags that there are. -/
def flagLetters : List Char := ['g', 'i', 'm', 's', 'u', 'y']

/-- The characters before which an expression can end. -/
def terminators : List Char := ['.', ';', ',', ')', ']', '\x7d', '\n', '\r']

/-- An expression can end before the text: behind spaces and tabs comes the end or a terminator. -/
def Ends (s : List Char) : Prop :=
  ∃ blanks rest, s = blanks ++ rest ∧ (∀ c ∈ blanks, c = ' ' ∨ c = '\t') ∧
    ∀ c, rest.head? = some c → c ∈ terminators

/-- The text begins with a regular expression: a slash, units, a slash, and all the flags that
come. -/
structure Form (s : List Char) (units : List Atom) (flags rest : List Char) : Prop where
  split : s = '/' :: (units.flatMap Atom.text ++ '/' :: (flags ++ rest))
  body : units ≠ []
  fits : ∀ unit ∈ units, unit.Fits
  flags : ∀ c ∈ flags, c ∈ flagLetters
  longest : ∀ c, rest.head? = some c → c ∉ flagLetters
  ends : Ends rest

variable {s body tail flags flags' rest rest' : List Char} {units units' : List Atom} {c : Char}

theorem isLineBreak_iff : isLineBreak c = true ↔ c ∈ ['\n', '\r'] := by simp [isLineBreak]

theorem isFlag_iff : isFlag c = true ↔ c ∈ flagLetters := by simp [isFlag, flagLetters, or_assoc]

/-! ## The body -/

/-- A unit of the body is passed over as a whole. -/
theorem body?_unit {unit : Atom} (h : unit.Fits) (s : List Char) :
    body? (unit.text ++ s) = (body? s).map fun (body, tail) => (unit.text ++ body, tail) := by
  cases unit with
  | plain c =>
    have hc : c ≠ '\\' ∧ isLineBreak c = false ∧ c ≠ '/' := by
      simp only [Atom.Fits, List.mem_cons, List.not_mem_nil, or_false, not_or] at h
      exact ⟨h.1, by simp [isLineBreak, h.2.2], h.2.1⟩
    refine body?_letters (fun d hd => ?_) s
    rw [List.mem_singleton.mp hd]
    exact hc
  | escaped c =>
    have hc : ¬ isLineBreak c = true := fun hbreak => h (isLineBreak_iff.mp hbreak)
    exact body?_escaped c [] (Bool.eq_false_iff.mpr hc) (by simp) s

/-- **Units up to a slash are a body**, and what follows the slash is left. -/
theorem body?_of_units (h : ∀ unit ∈ units, unit.Fits) (tail : List Char) :
    body? (units.flatMap Atom.text ++ '/' :: tail) = some (units.flatMap Atom.text, tail) := by
  induction units with
  | nil => rfl
  | cons unit rest ih =>
    rw [List.flatMap_cons, List.append_assoc, body?_unit (h unit List.mem_cons_self),
      ih fun other hmem => h other (List.mem_cons_of_mem _ hmem)]
    rfl

/-- **A body is made of units.** -/
theorem exists_units_of_body? (h : body? s = some (body, tail)) :
    ∃ units : List Atom, body = units.flatMap Atom.text ∧ ∀ unit ∈ units, unit.Fits := by
  fun_induction body? s generalizing body with
  | case1 => exact absurd h (by simp)
  | case2 => exact absurd h (by simp)
  | case3 => exact absurd h (by simp)
  | case4 c rest hbreak ih =>
    obtain ⟨⟨later, _⟩, hlater, heq⟩ := Option.map_eq_some_iff.mp h
    obtain ⟨rfl, rfl⟩ := Prod.mk.inj heq
    obtain ⟨units, rfl, hfits⟩ := ih hlater
    refine ⟨.escaped c :: units, rfl, fun unit hmem => ?_⟩
    rcases List.mem_cons.mp hmem with rfl | hmem
    · exact fun hc => hbreak (isLineBreak_iff.mpr hc)
    · exact hfits unit hmem
  | case5 => exact absurd h (by simp)
  | case6 c rest hend hescape hbreak hslash =>
    obtain ⟨rfl, -⟩ := Prod.mk.inj (Option.some.inj h)
    exact ⟨[], rfl, fun _ hmem => absurd hmem List.not_mem_nil⟩
  | case7 c rest hend hescape hbreak hslash ih =>
    obtain ⟨⟨later, _⟩, hlater, heq⟩ := Option.map_eq_some_iff.mp h
    obtain ⟨rfl, rfl⟩ := Prod.mk.inj heq
    obtain ⟨units, rfl, hfits⟩ := ih hlater
    refine ⟨.plain c :: units, rfl, fun unit hmem => ?_⟩
    rcases List.mem_cons.mp hmem with rfl | hmem
    · have hplain : c ≠ '\\' ∧ ¬ isLineBreak c = true ∧ c ≠ '/' :=
        ⟨ne_backslash hend hescape, hbreak, fun hc => hslash (beq_iff_eq.mpr hc)⟩
      rw [isLineBreak_iff] at hplain
      simp only [Atom.Fits, List.mem_cons, List.not_mem_nil, or_false, not_or] at hplain ⊢
      exact ⟨hplain.1, hplain.2.2, hplain.2.1⟩
    · exact hfits unit hmem

/-- A body is cut into units in one way. -/
theorem eq_of_flatMap_text_eq (h : ∀ unit ∈ units, unit.Fits) (h' : ∀ unit ∈ units', unit.Fits)
    (heq : units.flatMap Atom.text = units'.flatMap Atom.text) : units = units' := by
  induction units generalizing units' with
  | nil =>
    cases units' with
    | nil => rfl
    | cons unit later => cases unit <;> exact absurd heq (by simp [Atom.text])
  | cons unit rest ih =>
    cases units' with
    | nil => cases unit <;> exact absurd heq (by simp [Atom.text])
    | cons unit' rest' =>
      have hfirst := h unit List.mem_cons_self
      have hfirst' := h' unit' List.mem_cons_self
      have hrest (heq : rest.flatMap Atom.text = rest'.flatMap Atom.text) : rest = rest' :=
        ih (fun other hmem => h other (List.mem_cons_of_mem _ hmem))
          (fun other hmem => h' other (List.mem_cons_of_mem _ hmem)) heq
      rw [List.flatMap_cons, List.flatMap_cons] at heq
      -- a backslash begins an escaped unit and no other
      cases unit with
      | plain c =>
        cases unit' with
        | plain d =>
          obtain ⟨rfl, hlater⟩ := List.cons.inj heq
          rw [hrest hlater]
        | escaped d =>
          obtain ⟨rfl, -⟩ := List.cons.inj heq
          exact absurd hfirst (by simp [Atom.Fits])
      | escaped c =>
        cases unit' with
        | plain d =>
          obtain ⟨rfl, -⟩ := List.cons.inj heq
          exact absurd hfirst' (by simp [Atom.Fits])
        | escaped d =>
          obtain ⟨rfl, hlater⟩ := List.cons.inj (List.cons.inj heq).2
          rw [hrest hlater]

/-! ## The end -/

theorem endsExpression_iff : endsExpression s = true ↔ Ends s := by
  have hclass {c : Char} : (c == ' ' || c == '\t') = true ↔ c = ' ' ∨ c = '\t' := by simp
  have hterminator {c : Char} : (c == '.' || c == ';' || c == ',' || c == ')' || c == ']' ||
      c == '\x7d' || isLineBreak c) = true ↔ c ∈ terminators := by
    simp [terminators, isLineBreak, or_assoc]
  constructor
  · intro h
    refine ⟨s.takeWhile fun c => c == ' ' || c == '\t', s.dropWhile fun c => c == ' ' || c == '\t',
      List.takeWhile_append_dropWhile.symm, fun c hc => ?_, fun c hhead => ?_⟩
    · exact hclass.mp (List.all_eq_true.mp List.all_takeWhile c hc)
    · obtain ⟨rest, hrest⟩ := List.head?_eq_some_iff.mp hhead
      unfold endsExpression at h
      rw [hrest] at h
      exact hterminator.mp h
  · rintro ⟨blanks, rest, rfl, hblanks, hrest⟩
    -- no terminator is a blank, so these are all the blanks
    have hstops : Stops (fun c => c == ' ' || c == '\t') rest := by
      rintro c later rfl
      refine Bool.eq_false_iff.mpr fun hblank => ?_
      have hmem := hrest c rfl
      rcases hclass.mp hblank with rfl | rfl <;> exact absurd hmem (by decide)
    unfold endsExpression
    rw [hstops.dropWhile_append fun c hc => hclass.mpr (hblanks c hc)]
    cases rest with
    | nil => rfl
    | cons c later => exact hterminator.mpr (hrest c rfl)

/-! ## The form -/

namespace Form

theorem body?_eq (h : Form ('/' :: s) units flags rest) :
    body? s = some (units.flatMap Atom.text, flags ++ rest) := by
  rw [(List.cons.inj h.split).2]
  exact body?_of_units h.fits _

theorem stops (h : Form s units flags rest) : Stops isFlag rest := by
  rintro c later rfl
  exact Bool.eq_false_iff.mpr fun hc => h.longest c rfl (isFlag_iff.mp hc)

theorem takeWhile_eq (h : Form s units flags rest) : (flags ++ rest).takeWhile isFlag = flags :=
  h.stops.takeWhile_append fun c hc => isFlag_iff.mpr (h.flags c hc)

theorem dropWhile_eq (h : Form s units flags rest) : (flags ++ rest).dropWhile isFlag = rest :=
  h.stops.dropWhile_append fun c hc => isFlag_iff.mpr (h.flags c hc)

/-- **A text has the form in one way.** -/
theorem unique (h : Form ('/' :: s) units flags rest) (h' : Form ('/' :: s) units' flags' rest') :
    units = units' ∧ flags = flags' ∧ rest = rest' := by
  obtain ⟨hbody, htail⟩ := Prod.mk.inj (Option.some.inj (h.body?_eq.symm.trans h'.body?_eq))
  have hflags := congrArg (List.takeWhile isFlag) htail
  have hrest := congrArg (List.dropWhile isFlag) htail
  rw [h.takeWhile_eq, h'.takeWhile_eq] at hflags
  rw [h.dropWhile_eq, h'.dropWhile_eq] at hrest
  exact ⟨eq_of_flatMap_text_eq h.fits h'.fits hbody, hflags, hrest⟩

end Form

/-- The matcher finds what has the form. -/
theorem literal?_eq_some_iff {found : List Char} :
    literal? ('/' :: s) = some found ↔
      ∃ units flags rest, Form ('/' :: s) units flags rest ∧
        found = '/' :: (units.flatMap Atom.text ++ '/' :: flags) := by
  constructor
  · intro h
    cases hbody : body? s with
    | none => exact absurd h (by simp [literal?, hbody])
    | some parts =>
      obtain ⟨body, tail⟩ := parts
      obtain ⟨units, rfl, hfits⟩ := exists_units_of_body? hbody
      -- an empty body is refused, since two slashes begin a comment
      have hne : units.flatMap Atom.text ≠ [] := fun hnil => by simp [literal?, hbody, hnil] at h
      rw [literal?_of_body hbody hne] at h
      split at h
      · next hends =>
        refine ⟨units, tail.takeWhile isFlag, tail.dropWhile isFlag, ⟨?_, ?_, hfits, ?_, ?_, ?_⟩,
          (Option.some.inj h).symm⟩
        · rw [List.takeWhile_append_dropWhile, ← body?_eq hbody]
        · rintro rfl
          exact hne rfl
        · exact fun c hc => isFlag_iff.mp (List.all_eq_true.mp List.all_takeWhile c hc)
        · intro c hhead hc
          obtain ⟨rest, hrest⟩ := List.head?_eq_some_iff.mp hhead
          have hnot := Stops.dropWhile isFlag tail c rest hrest
          rw [isFlag_iff.mpr hc] at hnot
          exact absurd hnot (by simp)
        · exact endsExpression_iff.mp hends
      · exact absurd h (by simp)
  · rintro ⟨units, flags, rest, hform, rfl⟩
    have hne : units.flatMap Atom.text ≠ [] := fun hnil =>
      hform.body (eq_of_flatMap_text_eq hform.fits (by simp) hnil)
    rw [literal?_of_body hform.body?_eq hne, hform.takeWhile_eq, hform.dropWhile_eq,
      if_pos (endsExpression_iff.mpr hform.ends)]

/-- **Regular expressions are recognised exactly.** For a text that begins with a slash, the matcher
answers `n` if and only if the text has the form of a regular expression, a slash, units, a slash
and all flags that come, which ends at byte `n`, and an expression can end there. The text has the
form in one way, `n` is the boundary of a character, and there is no answer if the text has not the
form. -/
theorem regexp_is_exact (s : List Char) :
    (∀ n, (literal? ('/' :: s)).map byteLength = some n ↔
      ∃ units flags rest, Form ('/' :: s) units flags rest ∧
        n = byteLength ('/' :: (units.flatMap Atom.text ++ '/' :: flags))) ∧
    (∀ units flags rest units' flags' rest', Form ('/' :: s) units flags rest →
      Form ('/' :: s) units' flags' rest' → units = units' ∧ flags = flags' ∧ rest = rest') ∧
    (∀ n, (literal? ('/' :: s)).map byteLength = some n →
      (String.Pos.Raw.mk n).IsValid (String.ofList ('/' :: s))) ∧
    (literal? ('/' :: s) = none ↔ ¬ ∃ units flags rest, Form ('/' :: s) units flags rest) := by
  refine ⟨fun n => ?_, fun _ _ _ _ _ _ => Form.unique, fun n h => ?_, ?_⟩
  · rw [Option.map_eq_some_iff]
    constructor
    · rintro ⟨found, hfound, rfl⟩
      obtain ⟨units, flags, rest, hform, rfl⟩ := literal?_eq_some_iff.mp hfound
      exact ⟨units, flags, rest, hform, rfl⟩
    · rintro ⟨units, flags, rest, hform, rfl⟩
      exact ⟨_, literal?_eq_some_iff.mpr ⟨units, flags, rest, hform, rfl⟩, rfl⟩
  · obtain ⟨found, hfound, rfl⟩ := Option.map_eq_some_iff.mp h
    obtain ⟨rest, hrest⟩ := prefix_of_literal? hfound
    exact isValid_byteLength (by rw [String.toList_ofList, hrest])
  · rw [Option.eq_none_iff_forall_ne_some]
    constructor
    · rintro hnone ⟨units, flags, rest, hform⟩
      exact hnone _ (literal?_eq_some_iff.mpr ⟨units, flags, rest, hform, rfl⟩)
    · rintro hnone found hfound
      obtain ⟨units, flags, rest, hform, -⟩ := literal?_eq_some_iff.mp hfound
      exact hnone ⟨units, flags, rest, hform⟩

/-- A slash behind a backslash is part of the body. The expression has eight characters, one of them
with two bytes. -/
theorem escaped_slash_in_regexp :
    let s := ['a', '\\', '/', 'é', '/', 'g', 'i', ' ', ';']
    (literal? ('/' :: s)).map byteLength = some 9 ∧
      (∃ units flags rest, Form ('/' :: s) units flags rest ∧
        9 = byteLength ('/' :: (units.flatMap Atom.text ++ '/' :: flags))) ∧
      (String.Pos.Raw.mk 9).IsValid (String.ofList ('/' :: s)) := by
  intro s
  have hread : (literal? ('/' :: s)).map byteLength = some 9 := by decide +kernel
  obtain ⟨hexact, -, hboundary, -⟩ := regexp_is_exact s
  exact ⟨hread, (hexact 9).mp hread, hboundary 9 hread⟩

end ScriptLink.RegExp
