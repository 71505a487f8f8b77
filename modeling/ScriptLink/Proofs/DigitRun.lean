import ScriptLink.Proofs.Lookahead.Number

/-!
# Runs of digits and exponents

The splitters of numbers take one group of digits after the other and stop where no digit comes.
Here the same is said without a walk: what groups of digits are, and that a run of digits is such
groups, taken as long as possible. A text is split in one way only, so the splitters find every run
there is.

* **`DigitGroups`** — groups of digits with underscores between them.
* **`Run`** — such groups, taken as long as possible. `splitDigits_eq_iff`: what is split off.
* **`Exponent`** and `splitExponent?_eq_some_iff`: the same for the exponent of a number.
* **`Optionally`** — a part that is taken where the text goes on with it.
* **`Separated`** — underscores have digits or other underscores on both sides.
-/

namespace ScriptLink.Number

variable {p : Char → Bool} {s digits digits' more rest rest' text text' : List Char}

/-! ## Groups of digits -/

theorem head_of_forall (hne : text ≠ []) (h : ∀ c ∈ text, p c = true) :
    ∃ c rest, text = c :: rest ∧ p c = true := by
  cases text with
  | nil => exact absurd rfl hne
  | cons c rest => exact ⟨c, rest, rfl, h c List.mem_cons_self⟩

theorem head_append (h : ∃ c rest, text = c :: rest ∧ p c = true) (behind : List Char) :
    ∃ c rest, text ++ behind = c :: rest ∧ p c = true := by
  obtain ⟨c, rest, rfl, hc⟩ := h
  exact ⟨c, rest ++ behind, rfl, hc⟩

/-- Digits in groups, with one underscore or several between two groups. -/
inductive DigitGroups (p : Char → Bool) : List Char → Prop where
  | single {group : List Char} (hne : group ≠ []) (hgroup : ∀ c ∈ group, p c = true) :
      DigitGroups p group
  | more {group bar later : List Char} (hne : group ≠ []) (hgroup : ∀ c ∈ group, p c = true)
      (hbar : bar ≠ []) (hunderscores : ∀ c ∈ bar, c = '_') (hlater : DigitGroups p later) :
      DigitGroups p (group ++ (bar ++ later))

namespace DigitGroups

theorem ne_nil (h : DigitGroups p digits) : digits ≠ [] := by
  cases h with
  | single hne => exact hne
  | more hne => exact List.append_ne_nil_of_left_ne_nil hne _

theorem head (h : DigitGroups p digits) : ∃ c rest, digits = c :: rest ∧ p c = true := by
  cases h with
  | single hne hgroup => exact head_of_forall hne hgroup
  | more hne hgroup => exact head_append (head_of_forall hne hgroup) _

/-- The last character is a digit, too. -/
theorem getLast (h : DigitGroups p digits) : ∃ c, digits.getLast? = some c ∧ p c = true := by
  induction h with
  | @single group hne hgroup =>
    exact ⟨group.getLast hne, List.getLast?_eq_some_getLast hne, hgroup _ (List.getLast_mem hne)⟩
  | @more group bar later hne hgroup hbar hunderscores hlater ih =>
    obtain ⟨c, hlast, hc⟩ := ih
    refine ⟨c, ?_, hc⟩
    rw [← List.append_assoc, List.getLast?_append, hlast]
    rfl

theorem mem (h : DigitGroups p digits) : ∀ c ∈ digits, p c = true ∨ c = '_' := by
  induction h with
  | single hne hgroup => exact fun c hc => .inl (hgroup c hc)
  | more hne hgroup hbar hunderscores hlater ih =>
    intro c hc
    rcases List.mem_append.mp hc with hc | hc
    · exact .inl (hgroup c hc)
    · rcases List.mem_append.mp hc with hc | hc
      · exact .inr (hunderscores c hc)
      · exact ih c hc

end DigitGroups

/-- What follows the first group is more groups, each behind underscores. -/
theorem digitGroups_splitGroups (p : Char → Bool) (s : List Char) :
    ∀ group : List Char, group ≠ [] → (∀ c ∈ group, p c = true) →
      DigitGroups p (group ++ (splitGroups p s).1) := by
  -- the group in front changes: in the next round it is the group behind the underscores
  fun_induction splitGroups p s with
  | case1 =>
    intro group hne hgroup
    rw [List.append_nil]
    exact .single hne hgroup
  | case2 s bar rest next hsome more tail hmore ih =>
    intro group hne hgroup
    obtain ⟨hbar, hnext⟩ := not_or.mp hsome
    have hunderscores : ∀ c ∈ bar, c = '_' := fun c hc =>
      eq_of_beq (List.all_eq_true.mp List.all_takeWhile c hc)
    have hdigits : ∀ c ∈ next, p c = true := fun c hc =>
      List.all_eq_true.mp List.all_takeWhile c hc
    have hlater := ih next hnext hdigits
    rw [hmore] at hlater
    rw [List.append_assoc bar]
    exact .more hne hgroup hbar hunderscores hlater

theorem digitGroups_of_splitDigits (h : splitDigits p s = (digits, rest)) (hne : digits ≠ []) :
    DigitGroups p digits := by
  unfold splitDigits at h
  dsimp only at h
  split at h
  · exact absurd (Prod.mk.inj h).1.symm hne
  · next hfirst =>
    obtain ⟨rfl, -⟩ := Prod.mk.inj h
    refine digitGroups_splitGroups p _ _ hfirst fun c hc => ?_
    exact List.all_eq_true.mp List.all_takeWhile c hc

/-! ## Runs of digits -/

/-- Groups of digits before the rest of the text, taken as long as possible: none of the rest can be
added. -/
structure Run (p : Char → Bool) (digits rest : List Char) : Prop where
  groups : DigitGroups p digits
  longest : ∀ more, more <+: rest → DigitGroups p (digits ++ more) → more = []

/-- Where a run of digits ends, no groups can be added. -/
theorem Settled.longest (hbar : p '_' = false) (h : Settled p rest) (hfront : more <+: rest)
    (hgroups : DigitGroups p (digits ++ more)) : more = [] := by
  by_cases hne : more = []
  · exact hne
  exfalso
  obtain ⟨after, rfl⟩ := hfront
  -- what would be added ends in a digit, so there is more to it than underscores
  obtain ⟨last, hlast, hdigit⟩ := hgroups.getLast
  have hmem : last ∈ more := by
    rw [List.getLast?_append, List.getLast?_eq_some_getLast hne] at hlast
    obtain rfl := Option.some.inj hlast
    exact List.getLast_mem hne
  have hnot : (last == '_') = false := by
    refine beq_false_of_ne fun heq => ?_
    rw [heq, hbar] at hdigit
    exact absurd hdigit (by simp)
  have hstops := Stops.dropWhile (· == '_') more
  have hsplit : more.takeWhile (· == '_') ++ more.dropWhile (· == '_') = more :=
    List.takeWhile_append_dropWhile
  have hunderscores : ∀ c ∈ more.takeWhile (· == '_'), (c == '_') = true := fun c hc =>
    List.all_eq_true.mp List.all_takeWhile c hc
  cases hbehind : more.dropWhile (· == '_') with
  | nil =>
    rw [hbehind, List.append_nil] at hsplit
    rw [← hsplit] at hmem
    exact absurd ((hunderscores last hmem).symm.trans hnot) (by simp)
  | cons d later =>
    rw [hbehind] at hsplit hstops
    have hfirst : (d == '_') = false := hstops d later rfl
    have hd : p d = true := by
      have hmem : d ∈ digits ++ more := by
        rw [← hsplit]
        simp
      exact (hgroups.mem d hmem).resolve_right fun heq => by simp [heq] at hfirst
    -- but the rest begins with no digit, and has none behind its underscores
    rw [← hsplit, List.append_assoc, List.cons_append] at h
    have hends : Stops (· == '_') (d :: (later ++ after)) := .cons hfirst
    rcases h.cases with hnone | hdigits
    · rw [hends.takeWhile_append hunderscores] at hnone
      rw [hnone] at h
      exact absurd (hd.symm.trans (h.stops d _ rfl)) (by simp)
    · rw [hends.dropWhile_append hunderscores] at hdigits
      exact absurd (hd.symm.trans (hdigits d _ rfl)) (by simp)

/-- A text is split in one way into a run of digits and the rest. -/
theorem Run.unique (h : Run p digits rest) (h' : Run p digits' rest')
    (hsplit : digits ++ rest = digits' ++ rest') : digits = digits' ∧ rest = rest' := by
  -- the longer one would add to the shorter one
  rcases List.append_eq_append_iff.mp hsplit with ⟨more, rfl, rfl⟩ | ⟨more, rfl, rfl⟩
  · obtain rfl := h.longest more (List.prefix_append _ _) h'.groups
    exact ⟨(List.append_nil _).symm, rfl⟩
  · obtain rfl := h'.longest more (List.prefix_append _ _) h.groups
    exact ⟨List.append_nil _, rfl⟩

theorem run_of_splitDigits (hbar : p '_' = false) (h : splitDigits p s = (digits, rest))
    (hne : digits ≠ []) : Run p digits rest where
  groups := digitGroups_of_splitDigits h hne
  longest _ hfront hgroups := (settled_of_splitDigits hbar h hne).longest hbar hfront hgroups

/-- A run of digits is split off. -/
theorem Run.splits (hbar : p '_' = false) (h : Run p digits rest) :
    splitDigits p (digits ++ rest) = (digits, rest) := by
  obtain ⟨c, later, hdigits, hc⟩ := h.groups.head
  cases hfound : splitDigits p (digits ++ rest) with
  | mk found behind =>
    have hne : found ≠ [] := by
      rw [hdigits, List.cons_append] at hfound
      exact whole_ne_nil hc hfound
    have hsplit := splitDigits_eq p (digits ++ rest)
    rw [hfound] at hsplit
    obtain ⟨rfl, rfl⟩ := h.unique (run_of_splitDigits hbar hfound hne) hsplit.symm
    rfl

/-- **What is split off is a run of digits**, unless the text begins with none. -/
theorem splitDigits_eq_iff (hbar : p '_' = false) (hne : digits ≠ []) :
    splitDigits p s = (digits, rest) ↔ s = digits ++ rest ∧ Run p digits rest := by
  constructor
  · intro h
    have hsplit := splitDigits_eq p s
    rw [h] at hsplit
    exact ⟨hsplit.symm, run_of_splitDigits hbar h hne⟩
  · rintro ⟨rfl, hrun⟩
    exact hrun.splits hbar

/-! ## The parts of a number -/

/-- A part that is taken where the text goes on with it, and else left out. -/
def Optionally (part : List Char → List Char → Prop) (text rest : List Char) : Prop :=
  part text rest ∨ text = [] ∧ ∀ taken behind, rest = taken ++ behind → ¬ part taken behind

/-- The mark of a big integer. -/
def IsBigMark (text _rest : List Char) : Prop := text = ['n']

/-- The letter of an exponent, perhaps a sign, and a run of digits. -/
inductive Exponent : List Char → List Char → Prop where
  | mk {e : Char} {sign digits rest : List Char} (he : e = 'e' ∨ e = 'E')
      (hsign : sign = [] ∨ sign = ['+'] ∨ sign = ['-']) (hdigits : Run Char.isDigit digits rest) :
      Exponent (e :: (sign ++ digits)) rest

theorem splitExponent?_of_exponent (h : Exponent text rest) :
    splitExponent? (text ++ rest) = some (text, rest) := by
  cases h with
  | @mk e sign digits rest he hsign hdigits =>
    have hmark : (e == 'e' || e == 'E') = true := by simpa using he
    have hfound : (((sign ++ digits) ++ rest).take 1).filter (fun c => c == '+' || c == '-') =
        sign := by
      rcases hsign with rfl | rfl | rfl
      · -- without a sign the first digit comes, which is none
        obtain ⟨d, later, rfl, hd⟩ := hdigits.groups.head
        have hnot : (d == '+' || d == '-') = false := by
          refine Bool.eq_false_iff.mpr fun heq => ?_
          rcases Bool.or_eq_true_iff.mp heq with heq | heq <;> rw [eq_of_beq heq] at hd <;>
            exact absurd hd (by decide)
        simp [hnot]
      · rfl
      · rfl
    rw [List.cons_append]
    unfold splitExponent?
    dsimp only
    rw [if_pos hmark, hfound, List.append_assoc, List.drop_left, hdigits.splits (by decide)]
    dsimp only
    rw [if_neg hdigits.groups.ne_nil]

/-- **What is split off is an exponent.** -/
theorem splitExponent?_eq_some_iff :
    splitExponent? s = some (text, rest) ↔ s = text ++ rest ∧ Exponent text rest := by
  constructor
  · intro h
    refine ⟨(splitExponent?_eq h).symm, ?_⟩
    unfold splitExponent? at h
    split at h
    · exact absurd h (by simp)
    · next e later =>
      split at h
      · next hmark =>
        dsimp only at h
        split at h
        · exact absurd h (by simp)
        · next hne =>
          obtain ⟨rfl, rfl⟩ := Prod.mk.inj (Option.some.inj h)
          refine .mk (by simpa using hmark) ?_ (run_of_splitDigits (by decide) rfl hne)
          rcases sign_cases later with hnone | ⟨c, -, -, rfl | rfl, hone⟩
          · exact .inl hnone
          · exact .inr (.inl hone)
          · exact .inr (.inr hone)
      · exact absurd h (by simp)
  · rintro ⟨rfl, hexponent⟩
    exact splitExponent?_of_exponent hexponent

/-- The exponent that is split off, or nothing. -/
theorem optionally_exponent (s : List Char) :
    ∃ text rest, s = text ++ rest ∧ text = ((splitExponent? s).map Prod.fst).getD [] ∧
      Optionally Exponent text rest := by
  cases hfound : splitExponent? s with
  | none =>
    refine ⟨[], s, rfl, rfl, .inr ⟨rfl, fun taken behind hsplit hexponent => ?_⟩⟩
    rw [splitExponent?_eq_some_iff.mpr ⟨hsplit, hexponent⟩] at hfound
    exact absurd hfound (by simp)
  | some found =>
    obtain ⟨hsplit, hexponent⟩ := splitExponent?_eq_some_iff.mp hfound
    exact ⟨found.1, found.2, hsplit, rfl, .inl hexponent⟩

theorem Optionally.exponent_eq (h : Optionally Exponent text rest) :
    ((splitExponent? (text ++ rest)).map Prod.fst).getD [] = text := by
  rcases h with hexponent | ⟨rfl, hnone⟩
  · rw [splitExponent?_of_exponent hexponent]
    rfl
  · cases hfound : splitExponent? ([] ++ rest) with
    | none => rfl
    | some found =>
      obtain ⟨hsplit, hexponent⟩ := splitExponent?_eq_some_iff.mp hfound
      exact absurd hexponent (hnone found.1 found.2 hsplit)

theorem optionally_bigMark (s : List Char) :
    ∃ rest, s = bigMark s ++ rest ∧ Optionally IsBigMark (bigMark s) rest := by
  rcases bigMark_cases s with ⟨hmark, rest, rfl⟩ | ⟨hmark, hstops⟩
  · exact ⟨rest, by rw [hmark]; rfl, .inl hmark⟩
  · refine ⟨s, by rw [hmark]; rfl, .inr ⟨hmark, fun taken behind hsplit htaken => ?_⟩⟩
    obtain rfl : taken = ['n'] := htaken
    exact absurd (hstops 'n' behind hsplit) (by decide)

theorem Optionally.bigMark_eq (h : Optionally IsBigMark text rest) :
    bigMark (text ++ rest) = text := by
  rcases h with hmark | ⟨rfl, hnone⟩
  · obtain rfl : text = ['n'] := hmark
    rfl
  · refine bigMark_of_stops fun c later heq => ?_
    refine beq_false_of_ne fun hc => hnone ['n'] later ?_ rfl
    rw [← hc]
    exact heq

/-! ## Underscores -/

/-- Each underscore has a digit or another underscore on both sides. -/
def Separated (p : Char → Bool) (text : List Char) : Prop :=
  ∀ before after, text = before ++ '_' :: after →
    (∃ c, before.getLast? = some c ∧ (p c = true ∨ c = '_')) ∧
      ∃ c, after.head? = some c ∧ (p c = true ∨ c = '_')

namespace Separated

theorem of_not_mem (h : '_' ∉ text) : Separated p text := by
  rintro before after rfl
  exact absurd (List.mem_append_right _ List.mem_cons_self) h

theorem append (h : Separated p text) (h' : Separated p text') : Separated p (text ++ text') := by
  intro before after hsplit
  rcases List.append_eq_append_iff.mp hsplit with ⟨between, rfl, rfl⟩ | ⟨between, rfl, hbetween⟩
  · -- the underscore stands in the second text
    obtain ⟨⟨c, hlast, hc⟩, hafter⟩ := h' between after rfl
    refine ⟨⟨c, ?_, hc⟩, hafter⟩
    rw [List.getLast?_append, hlast]
    rfl
  · -- it stands in the first one, or it would be the first character of the second
    cases between with
    | nil =>
      obtain ⟨⟨c, hlast, hc⟩, hafter⟩ := h' [] after hbetween.symm
      exact absurd hlast (by simp)
    | cons d later =>
      obtain ⟨rfl, rfl⟩ := List.cons.inj hbetween
      obtain ⟨hbefore, c, hhead, hc⟩ := h before later rfl
      refine ⟨hbefore, c, ?_, hc⟩
      show (later ++ text').head? = some c
      rw [List.head?_append, hhead]
      rfl

end Separated

/-- In groups of digits, an underscore is neither first nor last. -/
theorem DigitGroups.separated (hbar : p '_' = false) (h : DigitGroups p digits) :
    Separated p digits := by
  rintro before after rfl
  constructor
  · cases hlast : before.getLast? with
    | none =>
      obtain rfl := List.getLast?_eq_none_iff.mp hlast
      obtain ⟨c, rest, heq, hc⟩ := h.head
      rw [← (List.cons.inj heq).1, hbar] at hc
      exact absurd hc (by simp)
    | some c =>
      exact ⟨c, rfl, h.mem c (List.mem_append_left _ (List.mem_of_getLast? hlast))⟩
  · cases after with
    | nil =>
      obtain ⟨c, hlast, hc⟩ := h.getLast
      rw [List.getLast?_concat] at hlast
      rw [← Option.some.inj hlast, hbar] at hc
      exact absurd hc (by simp)
    | cons c rest => exact ⟨c, rfl, h.mem c (by simp)⟩

theorem Run.separated (hbar : p '_' = false) (h : Run p digits rest) : Separated p digits :=
  h.groups.separated hbar

theorem Optionally.separated_bigMark (h : Optionally IsBigMark text rest) : Separated p text := by
  rcases h with hmark | ⟨rfl, -⟩
  · obtain rfl : text = ['n'] := hmark
    exact .of_not_mem (by decide)
  · exact .of_not_mem (by decide)

theorem Exponent.separated (h : Exponent text rest) : Separated Char.isDigit text := by
  cases h with
  | @mk e sign digits rest he hsign hdigits =>
    have hlead : '_' ∉ e :: sign := by
      rcases he with rfl | rfl <;> rcases hsign with rfl | rfl | rfl <;> decide
    rw [← List.cons_append]
    exact (Separated.of_not_mem hlead).append (hdigits.separated (by decide))

theorem Optionally.separated_exponent (h : Optionally Exponent text rest) :
    Separated Char.isDigit text := by
  rcases h with hexponent | ⟨rfl, -⟩
  · exact hexponent.separated
  · exact .of_not_mem (by decide)

end ScriptLink.Number
