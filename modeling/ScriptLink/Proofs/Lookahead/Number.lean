import ScriptLink.Proofs.Literal
import ScriptLink.Proofs.Lookahead.Agreement

/-!
# Numbers before another text

A number goes on as long as digits come, underscores between them, a fraction or an exponent. None
of this reaches behind a line break, and none of it tells `var` from the words it stands for, so a
number is the same before texts that go on alike: **`Number.literal?_append`**.

`Number.Settled` says that a run of digits ends here.
-/

namespace ScriptLink

namespace Number

variable {p : Char → Bool} {s rest rest' digits old new : List Char}

/-- The run of digits ends here: no digit comes next, and none behind underscores. -/
structure Settled (p : Char → Bool) (rest : List Char) : Prop where
  stops : Stops p rest
  groups : splitGroups p rest = ([], rest)

theorem splitGroups_eq_nil (h : rest.takeWhile (· == '_') = [] ∨
    Stops p (rest.dropWhile (· == '_'))) : splitGroups p rest = ([], rest) := by
  unfold splitGroups
  dsimp only
  rw [dif_pos (h.imp_right Stops.takeWhile_eq)]

theorem Settled.of_cons {c : Char} (hc : p c = false) (hbar : c ≠ '_') : Settled p (c :: rest) :=
  ⟨.cons hc, splitGroups_eq_nil (.inl (by simp [hbar]))⟩

theorem Settled.cases (h : Settled p rest) :
    rest.takeWhile (· == '_') = [] ∨ Stops p (rest.dropWhile (· == '_')) := by
  have hgroups := h.groups
  unfold splitGroups at hgroups
  dsimp only at hgroups
  split at hgroups
  · next hnone =>
    refine hnone.imp_right fun hgroup => ?_
    exact Stops.of_takeWhile_eq_nil hgroup
  · next hsome =>
    -- a group behind underscores is taken
    obtain ⟨hbar, -⟩ := not_or.mp hsome
    have hfirst := (Prod.mk.inj hgroups).1
    simp only [List.append_eq_nil_iff] at hfirst
    exact absurd hfirst.1.1 hbar

theorem apart_underscore : Agrees.Apart (· == '_') := by unfold Agrees.Apart; decide

/-- Where a run of digits ends is seen from what follows up to the next line break. -/
theorem Settled.congr (hv : p 'v' = false) (h : Settled p old) (hagrees : Agrees old new) :
    Settled p new := by
  have hword : p 'v' = true → p 'l' = true ∧ p 'c' = true := by simp [hv]
  obtain ⟨hbar, hbehind⟩ := hagrees.takeWhile_eq apart_underscore
  refine ⟨hagrees.stops hword h.stops, splitGroups_eq_nil ?_⟩
  rw [← hbar]
  exact h.cases.imp_right (hbehind.stops hword)

/-- Behind the groups the run is at its end, and the groups are found again before any other end. -/
theorem splitGroups_append (hbar : p '_' = false) (s : List Char) :
    (Stops p s → Settled p (splitGroups p s).2) ∧
      ∀ rest', Settled p rest' → splitGroups p ((splitGroups p s).1 ++ rest') =
        ((splitGroups p s).1, rest') ∧ Stops p ((splitGroups p s).1 ++ rest') := by
  fun_induction splitGroups p s with
  | case1 s bar rest group hnone =>
    refine ⟨fun hstops => ⟨hstops, ?_⟩, fun rest' h => ⟨h.groups, h.stops⟩⟩
    unfold splitGroups
    dsimp only
    rw [dif_pos hnone]
  | case2 s bar rest group hsome more tail hmore ih =>
    rw [hmore] at ih
    obtain ⟨hsettled, hagain⟩ := ih
    refine ⟨fun _ => hsettled (Stops.dropWhile p rest), fun rest' h => ?_⟩
    obtain ⟨hsplit, hstops⟩ := hagain rest' h
    obtain ⟨hbarNe, hgroupNe⟩ := not_or.mp hsome
    have hgroup : ∀ c ∈ group, p c = true :=
      fun c hc => List.all_eq_true.mp List.all_takeWhile c hc
    have hunderscores : ∀ c ∈ bar, (c == '_') = true :=
      fun c hc => List.all_eq_true.mp List.all_takeWhile c hc
    have hstart : Stops (· == '_') (group ++ (more ++ rest')) := by
      cases hcons : group with
      | nil => exact absurd hcons hgroupNe
      | cons d later =>
        refine .cons ?_
        have hd := hgroup d (hcons ▸ List.mem_cons_self)
        refine Bool.eq_false_iff.mpr fun heq => ?_
        rw [eq_of_beq heq, hbar] at hd
        exact absurd hd (by simp)
    dsimp only
    constructor
    · rw [show bar ++ group ++ more ++ rest' = bar ++ (group ++ (more ++ rest')) by simp]
      unfold splitGroups
      dsimp only
      rw [hstart.takeWhile_append hunderscores, hstart.dropWhile_append hunderscores,
        hstops.takeWhile_append hgroup, hstops.dropWhile_append hgroup, dif_neg hsome, hsplit]
    · cases hcons : bar with
      | nil => exact absurd hcons hbarNe
      | cons d later =>
        have hd := hunderscores d (hcons ▸ List.mem_cons_self)
        exact .cons (by rw [eq_of_beq hd]; exact hbar)

theorem splitDigits_of_stops (h : Stops p s) : splitDigits p s = ([], s) := by
  unfold splitDigits
  dsimp only
  rw [if_pos h.takeWhile_eq]

/-- Behind a run of digits the run is at its end. -/
theorem settled_of_splitDigits (hbar : p '_' = false) (h : splitDigits p s = (digits, rest))
    (hne : digits ≠ []) : Settled p rest := by
  unfold splitDigits at h
  dsimp only at h
  split at h
  · exact absurd (Prod.mk.inj h).1.symm hne
  · obtain ⟨-, rfl⟩ := Prod.mk.inj h
    exact (splitGroups_append hbar _).1 (Stops.dropWhile p s)

/-- A run of digits is found again before any other end. -/
theorem splitDigits_append (hbar : p '_' = false) (h : splitDigits p s = (digits, rest))
    (hsettled : Settled p rest') : splitDigits p (digits ++ rest') = (digits, rest') := by
  unfold splitDigits at h
  dsimp only at h
  split at h
  · obtain ⟨rfl, -⟩ := Prod.mk.inj h
    exact splitDigits_of_stops hsettled.stops
  · next hfirst =>
    obtain ⟨rfl, rfl⟩ := Prod.mk.inj h
    obtain ⟨hsplit, hstops⟩ := (splitGroups_append hbar (s.dropWhile p)).2 rest' hsettled
    have hdigits : ∀ c ∈ s.takeWhile p, p c = true :=
      fun c hc => List.all_eq_true.mp List.all_takeWhile c hc
    unfold splitDigits
    dsimp only
    rw [List.append_assoc, hstops.takeWhile_append hdigits, hstops.dropWhile_append hdigits,
      if_neg hfirst, hsplit]

theorem stops_of_splitDigits (h : splitDigits p s = ([], rest)) : Stops p s := by
  unfold splitDigits at h
  dsimp only at h
  split at h
  · next hnone => exact Stops.of_takeWhile_eq_nil hnone
  · next hsome =>
    have hfirst := (Prod.mk.inj h).1
    exact absurd (List.append_eq_nil_iff.mp hfirst).1 hsome

/-- A run of digits begins with a digit. -/
theorem head_of_splitDigits {d : Char} {more : List Char}
    (h : splitDigits p s = (d :: more, rest)) : p d = true := by
  unfold splitDigits at h
  dsimp only at h
  split at h
  · exact absurd (Prod.mk.inj h).1 (by simp)
  · next hfirst =>
    have hdigits := (Prod.mk.inj h).1
    cases hcons : s.takeWhile p with
    | nil => exact absurd hcons hfirst
    | cons c later =>
      rw [hcons] at hdigits
      obtain ⟨rfl, -⟩ := List.cons.inj hdigits
      exact List.all_eq_true.mp List.all_takeWhile c (hcons ▸ List.mem_cons_self)

/-- What is taken for a sign. -/
theorem sign_cases (s : List Char) :
    (s.take 1).filter (fun c => c == '+' || c == '-') = [] ∨
      ∃ c rest, s = c :: rest ∧ (c = '+' ∨ c = '-') ∧
        (s.take 1).filter (fun c => c == '+' || c == '-') = [c] := by
  cases s with
  | nil => exact .inl rfl
  | cons c rest =>
    by_cases hc : (c == '+' || c == '-') = true
    · refine .inr ⟨c, rest, rfl, ?_, by simp [hc]⟩
      simpa using hc
    · exact .inl (by simp [hc])

/-- An exponent is found again before any other end. -/
theorem splitExponent?_append {exponent tail : List Char}
    (h : splitExponent? s = some (exponent, tail)) :
    Settled Char.isDigit tail ∧
      ∀ rest', Settled Char.isDigit rest' →
        splitExponent? (exponent ++ rest') = some (exponent, rest') ∧
          Settled Char.isDigit (exponent ++ rest') := by
  unfold splitExponent? at h
  split at h
  · exact absurd h (by simp)
  · next e rest =>
    split at h
    · next hmark =>
      dsimp only at h
      split at h
      · exact absurd h (by simp)
      · next hdigits =>
        obtain ⟨rfl, rfl⟩ := Prod.mk.inj (Option.some.inj h)
        generalize hsign : (rest.take 1).filter (fun c => c == '+' || c == '-') = sign at hdigits ⊢
        generalize hsplit : splitDigits Char.isDigit (rest.drop sign.length) = found at hdigits ⊢
        obtain ⟨digits, tail⟩ := found
        have hsettled := settled_of_splitDigits (by decide) hsplit hdigits
        refine ⟨hsettled, fun rest' hrest' => ?_⟩
        have hagain := splitDigits_append (by decide) hsplit hrest'
        have hsign' : ((sign ++ (digits ++ rest')).take 1).filter
            (fun c => c == '+' || c == '-') = sign := by
          rcases sign_cases rest with hnone | ⟨c, later, -, hc, hone⟩
          · obtain rfl := hsign.symm.trans hnone
            cases digits with
            | nil => exact absurd rfl hdigits
            | cons d more =>
              have hd := head_of_splitDigits hsplit
              have hno : (d == '+' || d == '-') = false := by
                refine Bool.eq_false_iff.mpr fun heq => ?_
                simp only [Bool.or_eq_true, beq_iff_eq] at heq
                rcases heq with rfl | rfl <;> exact absurd hd (by decide)
              simp [hno]
          · obtain rfl := hsign.symm.trans hone
            rcases hc with rfl | rfl <;> rfl
        have he : e.isDigit = false ∧ e ≠ '_' := by
          simp only [Bool.or_eq_true, beq_iff_eq] at hmark
          rcases hmark with rfl | rfl <;> decide
        refine ⟨?_, .of_cons he.1 he.2⟩
        rw [List.cons_append, List.append_assoc]
        unfold splitExponent?
        dsimp only
        rw [if_pos hmark, hsign', List.drop_left, hagain]
        dsimp only
        rw [if_neg hdigits]
    · exact absurd h (by simp)

/-- No digit comes in behind a sign, or where one could stand. -/
theorem stops_behind_sign (hagrees : Agrees old new)
    (h : Stops Char.isDigit
      (old.drop ((old.take 1).filter fun c => c == '+' || c == '-').length)) :
    Stops Char.isDigit (new.drop ((new.take 1).filter fun c => c == '+' || c == '-').length) := by
  rcases hagrees.head_cases with ⟨rfl, rfl⟩ | ⟨c, rest, rest', rfl, rfl, hrest⟩ |
    ⟨-, -, rest', -, -, rfl⟩
  · exact h
  · by_cases hc : (c == '+' || c == '-') = true
    · have hrest : Agrees rest rest' := by
        refine hrest.resolve_left fun hbreak => ?_
        simp only [Bool.or_eq_true, beq_iff_eq] at hc
        rcases hc with rfl | rfl <;> exact absurd hbreak (by decide)
      simp only [List.take_succ_cons, List.take_zero, List.filter_cons, hc, if_true,
        List.filter_nil, List.length_singleton, List.drop_one, List.tail_cons] at h ⊢
      exact hrest.stops (by decide) h
    · simp only [List.take_succ_cons, List.take_zero, List.filter_cons, hc, if_false,
        List.filter_nil, List.length_nil, List.drop_zero, Bool.false_eq_true] at h ⊢
      exact .cons (h c rest rfl)
  · exact .cons (by decide)

/-- No exponent comes in, either. -/
theorem splitExponent?_eq_none (h : splitExponent? old = none) (hagrees : Agrees old new) :
    splitExponent? new = none := by
  rcases hagrees.head_cases with ⟨-, rfl⟩ | ⟨e, rest, rest', rfl, rfl, hrest⟩ |
    ⟨-, -, rest', -, -, rfl⟩
  · rfl
  · unfold splitExponent? at h ⊢
    dsimp only at h ⊢
    by_cases hmark : (e == 'e' || e == 'E') = true
    · rw [if_pos hmark] at h ⊢
      have hrest : Agrees rest rest' := by
        refine hrest.resolve_left fun hbreak => ?_
        simp only [Bool.or_eq_true, beq_iff_eq] at hmark
        rcases hmark with rfl | rfl <;> exact absurd hbreak (by decide)
      split at h
      · next hdigits =>
        -- no digit comes behind the sign, here and there
        have hstops := stops_of_splitDigits (Prod.ext hdigits rfl)
        rw [splitDigits_of_stops (stops_behind_sign hrest hstops)]
        rfl
      · exact absurd h (by simp)
    · rw [if_neg hmark]
  · rfl

/-! ## Literals with a radix -/

/-- The digits of a radix: underscores, a final `n` and the first letter of `var` are none. -/
def IsRadix (p : Char → Bool) : Prop := p '_' = false ∧ p 'n' = false ∧ p 'v' = false

theorem bigMark_cases (s : List Char) :
    (bigMark s = ['n'] ∧ ∃ rest, s = 'n' :: rest) ∨
      (bigMark s = [] ∧ Stops (· == 'n') s) := by
  cases s with
  | nil => exact .inr ⟨rfl, .nil⟩
  | cons c rest =>
    by_cases hc : c = 'n'
    · subst hc
      exact .inl ⟨rfl, rest, rfl⟩
    · exact .inr ⟨by simp [bigMark, hc], .cons (by simp [hc])⟩

theorem bigMark_of_stops (h : Stops (· == 'n') s) : bigMark s = [] := by
  rcases bigMark_cases s with ⟨-, rest, rfl⟩ | ⟨hnone, -⟩
  · exact absurd (h 'n' rest rfl) (by decide)
  · exact hnone

theorem radixForm?_append {form kind : NumberKind} {lead text : List Char} (hp : IsRadix p)
    (h : radixForm? form p lead rest = some (kind, text)) (hsplit : lead ++ rest = text ++ old)
    (hagrees : Agrees old new) :
    ∃ rest', text ++ new = lead ++ rest' ∧ radixForm? form p lead rest' = some (kind, text) ∧
      rest'.head? = rest.head? := by
  unfold radixForm? at h
  dsimp only at h
  split at h
  · exact absurd h (by simp)
  · next hdigits =>
    obtain ⟨rfl, rfl⟩ := Prod.mk.inj (Option.some.inj h)
    generalize hfound : splitDigits p rest = found at hdigits hsplit ⊢
    obtain ⟨digits, tail⟩ := found
    have hrest := splitDigits_eq p rest
    rw [hfound] at hrest
    dsimp only at hrest hsplit hdigits ⊢
    have hsettled := settled_of_splitDigits hp.1 hfound hdigits
    have htail : tail = bigMark tail ++ old := by
      rw [← hrest, List.append_assoc, List.append_assoc, List.append_cancel_left_eq,
        List.append_cancel_left_eq] at hsplit
      exact hsplit
    have hnew : Settled p (bigMark tail ++ new) ∧ bigMark (bigMark tail ++ new) = bigMark tail := by
      rcases bigMark_cases tail with ⟨hmark, later, rfl⟩ | ⟨hmark, hstops⟩
      · rw [hmark]
        exact ⟨.of_cons hp.2.1 (by decide), rfl⟩
      · rw [hmark, List.nil_append] at htail ⊢
        subst htail
        exact ⟨hsettled.congr hp.2.2 hagrees,
          bigMark_of_stops (hagrees.stops (by decide) hstops)⟩
    refine ⟨digits ++ (bigMark tail ++ new), by simp, ?_, ?_⟩
    · unfold radixForm?
      rw [splitDigits_append hp.1 hfound hnew.1]
      dsimp only
      rw [if_neg hdigits, hnew.2]
    · cases digits with
      | nil => exact absurd rfl hdigits
      | cons d more =>
        rw [← hrest]
        rfl

theorem radixForm?_eq_none {form : NumberKind} {lead : List Char} (hv : p 'v' = false)
    (h : radixForm? form p lead old = none) (hagrees : Agrees old new) :
    radixForm? form p lead new = none := by
  unfold radixForm? at h ⊢
  dsimp only at h ⊢
  split at h
  · next hdigits =>
    have hstops := stops_of_splitDigits (Prod.ext hdigits rfl)
    rw [splitDigits_of_stops (hagrees.stops (by simp [hv]) hstops)]
    rfl
  · exact absurd h (by simp)

theorem isRadix_hex : IsRadix isHexDigit := ⟨by decide, by decide, by decide⟩

theorem isRadix_octal : IsRadix isOctalDigit := ⟨by decide, by decide, by decide⟩

theorem isRadix_binary : IsRadix isBinaryDigit := ⟨by decide, by decide, by decide⟩

theorem radixLiteral?_append {kind : NumberKind} {text : List Char}
    (h : radixLiteral? s = some (kind, text)) (hs : s = text ++ old) (hagrees : Agrees old new) :
    radixLiteral? (text ++ new) = some (kind, text) := by
  unfold radixLiteral? at h
  split at h
  · next mark rest =>
    split at h
    · next hx =>
      obtain ⟨rest', hsplit, hform, -⟩ := radixForm?_append isRadix_hex h hs hagrees
      rw [hsplit, ← hform]
      exact if_pos hx
    · next hx =>
      split at h
      · next ho =>
        obtain ⟨rest', hsplit, hform, -⟩ := radixForm?_append isRadix_octal h hs hagrees
        rw [hsplit, ← hform]
        exact (if_neg hx).trans (if_pos ho)
      · next ho =>
        split at h
        · next hb =>
          obtain ⟨rest', hsplit, hform, -⟩ := radixForm?_append isRadix_binary h hs hagrees
          rw [hsplit, ← hform]
          exact (if_neg hx).trans ((if_neg ho).trans (if_pos hb))
        · next hb =>
          split at h
          · next hdigit =>
            obtain ⟨rest', hsplit, hform, hhead⟩ := radixForm?_append isRadix_octal h hs hagrees
            cases rest' with
            | nil => exact absurd hhead (by simp)
            | cons first later =>
              obtain rfl := Option.some.inj hhead
              rw [hsplit, ← hform]
              exact (if_neg hx).trans ((if_neg ho).trans ((if_neg hb).trans (if_pos hdigit)))
          · exact absurd h (by simp)
  · exact absurd h (by simp)

theorem radixLiteral?_zero (mark : Char) (rest : List Char) :
    radixLiteral? ('0' :: mark :: rest) =
      if mark == 'x' || mark == 'X' then radixForm? .hex isHexDigit ['0', mark] rest
      else if mark == 'o' || mark == 'O' then radixForm? .octal isOctalDigit ['0', mark] rest
      else if mark == 'b' || mark == 'B' then radixForm? .binary isBinaryDigit ['0', mark] rest
      else if isOctalDigit mark then radixForm? .octal isOctalDigit ['0'] (mark :: rest)
      else none := rfl

/-- Only a zero begins a literal that names its radix. -/
theorem radixLiteral?_of_ne_zero {c : Char} (hc : c ≠ '0') (rest : List Char) :
    radixLiteral? (c :: rest) = none := by
  unfold radixLiteral?
  split
  · next heq => exact absurd (List.cons.inj heq).1 hc
  · rfl

theorem radixLiteral?_eq_none (h : radixLiteral? old = none) (hagrees : Agrees old new) :
    radixLiteral? new = none := by
  rcases hagrees.head_cases with ⟨-, rfl⟩ | ⟨c, rest, rest', rfl, rfl, hrest⟩ |
    ⟨-, -, rest', -, -, rfl⟩
  · rfl
  · by_cases hc : c = '0'
    · subst hc
      have hrest : Agrees rest rest' := hrest.resolve_left (by decide)
      rcases hrest.head_cases with ⟨-, rfl⟩ | ⟨mark, later, later', rfl, rfl, hlater⟩ |
        ⟨-, -, later', -, -, rfl⟩
      · rfl
      · -- a line break is no mark of a radix, and behind another mark the texts agree
        rcases hlater with hbreak | hlater
        · rcases isLineBreak_cases hbreak with rfl | rfl <;> rfl
        · rw [radixLiteral?_zero] at h ⊢
          split at h
          · next hx => rw [if_pos hx, radixForm?_eq_none isRadix_hex.2.2 h hlater]
          · next hx =>
            rw [if_neg hx]
            split at h
            · next ho => rw [if_pos ho, radixForm?_eq_none isRadix_octal.2.2 h hlater]
            · next ho =>
              rw [if_neg ho]
              split at h
              · next hb => rw [if_pos hb, radixForm?_eq_none isRadix_binary.2.2 h hlater]
              · next hb =>
                rw [if_neg hb]
                split at h
                · next hdigit =>
                  rw [if_pos hdigit, radixForm?_eq_none isRadix_octal.2.2 h (.cons hlater)]
                · next hdigit => rw [if_neg hdigit]
      · rfl
    · exact radixLiteral?_of_ne_zero hc rest'
  · exact radixLiteral?_of_ne_zero (by decide) _

/-! ## Decimal literals -/

theorem whole_ne_nil {whole : List Char} {c : Char} (hc : p c = true)
    (h : splitDigits p (c :: s) = (whole, rest)) : whole ≠ [] := by
  rintro rfl
  have hstops := stops_of_splitDigits h c s rfl
  rw [hc] at hstops
  exact absurd hstops (by simp)

/-- The literal from its whole digits on. -/
theorem decimalLiteral_of_splitDigits {whole rest : List Char}
    (h : splitDigits Char.isDigit s = (whole, '.' :: rest)) :
    decimalLiteral s =
      if (splitDigits Char.isDigit rest).1 = [] then (.integer, whole)
      else (.float, whole ++ '.' :: ((splitDigits Char.isDigit rest).1 ++
        ((splitExponent? (splitDigits Char.isDigit rest).2).map Prod.fst).getD [])) := by
  unfold decimalLiteral
  rw [h]
  rfl

theorem decimalLiteral_append_dot {form : NumberKind} {whole after text : List Char}
    (hwhole : splitDigits Char.isDigit s = (whole, '.' :: after))
    (h : (if (splitDigits Char.isDigit after).1 = [] then (NumberKind.integer, whole)
      else (.float, whole ++ '.' :: ((splitDigits Char.isDigit after).1 ++
        ((splitExponent? (splitDigits Char.isDigit after).2).map Prod.fst).getD []))) =
          (form, text))
    (hs : whole ++ '.' :: after = text ++ old) (hagrees : Agrees old new) :
    decimalLiteral (text ++ new) = (form, text) := by
  have hdot (rest : List Char) : splitDigits Char.isDigit (whole ++ '.' :: rest) =
      (whole, '.' :: rest) :=
    splitDigits_append (by decide) hwhole (.of_cons (by decide) (by decide))
  have hfraction := splitDigits_eq Char.isDigit after
  generalize hfound : splitDigits Char.isDigit after = found at h hfraction
  obtain ⟨fraction, later⟩ := found
  dsimp only at h hfraction
  split at h
  · next hnone =>
    -- a dot without a digit behind it is left alone
    obtain ⟨rfl, rfl⟩ := Prod.mk.inj h
    obtain rfl : '.' :: after = old := List.append_cancel_left hs
    rcases hagrees.cons_of_head '.' (by decide) (by decide) with
      ⟨rest, rest', heq, rfl, hrest⟩ | ⟨hno, -⟩
    · obtain ⟨-, rfl⟩ := List.cons.inj heq
      have hstops := stops_of_splitDigits (Prod.ext (congrArg Prod.fst hfound |>.trans hnone) rfl)
      rw [decimalLiteral_of_splitDigits (hdot rest'),
        splitDigits_of_stops (hrest.stops (by decide) hstops), if_pos rfl]
    · exact absurd rfl (hno after)
  · next hsome =>
    obtain ⟨rfl, rfl⟩ := Prod.mk.inj h
    have hsettled := settled_of_splitDigits (by decide) hfound hsome
    cases hexponent : splitExponent? later with
    | some found =>
      obtain ⟨exponent, behind⟩ := found
      obtain ⟨hbehind, hagain⟩ := splitExponent?_append hexponent
      rw [hexponent] at hs
      have hold : behind = old := by
        rw [← hfraction, ← splitExponent?_eq hexponent] at hs
        simpa using hs
      obtain ⟨hexponent', hsettled'⟩ := hagain new ((hold ▸ hbehind).congr (by decide) hagrees)
      have htext : whole ++ '.' :: (fraction ++ ((some (exponent, behind)).map Prod.fst).getD []) ++
          new = whole ++ '.' :: (fraction ++ (exponent ++ new)) := by simp
      rw [htext, decimalLiteral_of_splitDigits (hdot _),
        splitDigits_append (by decide) hfound hsettled', if_neg hsome, hexponent']
      rfl
    | none =>
      rw [hexponent] at hs
      have hold : later = old := by
        rw [← hfraction] at hs
        simpa using hs
      subst hold
      have htext : whole ++ '.' :: (fraction ++
          ((none : Option (List Char × List Char)).map Prod.fst).getD []) ++ new =
            whole ++ '.' :: (fraction ++ new) := by simp
      rw [htext, decimalLiteral_of_splitDigits (hdot _),
        splitDigits_append (by decide) hfound (hsettled.congr (by decide) hagrees), if_neg hsome,
        splitExponent?_eq_none hexponent hagrees]

theorem decimalLiteral_append {form : NumberKind} {text : List Char} {c : Char} {rest : List Char}
    (hc : c.isDigit = true) (h : decimalLiteral (c :: rest) = (form, text))
    (hs : c :: rest = text ++ old) (hagrees : Agrees old new) :
    decimalLiteral (text ++ new) = (form, text) := by
  unfold decimalLiteral at h
  generalize hfound : splitDigits Char.isDigit (c :: rest) = found at h
  obtain ⟨whole, tail⟩ := found
  have hsplit := splitDigits_eq Char.isDigit (c :: rest)
  rw [hfound] at hsplit
  dsimp only at h hsplit
  have hwhole := whole_ne_nil hc hfound
  have hsettled := settled_of_splitDigits (by decide) hfound hwhole
  split at h
  · next exponent after hexponent =>
    obtain ⟨rfl, rfl⟩ := Prod.mk.inj h
    obtain ⟨hafter, hagain⟩ := splitExponent?_append hexponent
    have hold : after = old := by
      rw [← hsplit, ← splitExponent?_eq hexponent, List.append_assoc, List.append_cancel_left_eq,
        List.append_cancel_left_eq] at hs
      exact hs
    obtain ⟨hexponent', hsettled'⟩ := hagain new ((hold ▸ hafter).congr (by decide) hagrees)
    unfold decimalLiteral
    rw [List.append_assoc, splitDigits_append (by decide) hfound hsettled']
    dsimp only
    rw [hexponent']
  · next hexponent =>
    split at h
    · next after => exact decimalLiteral_append_dot hfound h (hsplit.trans hs) hagrees
    · next after =>
      obtain ⟨rfl, rfl⟩ := Prod.mk.inj h
      have hagain : splitDigits Char.isDigit (whole ++ 'n' :: new) = (whole, 'n' :: new) :=
        splitDigits_append (by decide) hfound (.of_cons (by decide) (by decide))
      unfold decimalLiteral
      rw [List.append_assoc, List.singleton_append, hagain]
      rfl
    · next hdot hn =>
      obtain ⟨rfl, rfl⟩ := Prod.mk.inj h
      obtain rfl : tail = old := by
        rw [← hsplit, List.append_cancel_left_eq] at hs
        exact hs
      have hdot' : Stops (· == '.') new := hagrees.stops (by decide) fun d later heq =>
        Bool.eq_false_iff.mpr fun hd => hdot later (by rw [heq, eq_of_beq hd])
      have hn' : Stops (· == 'n') new := hagrees.stops (by decide) fun d later heq =>
        Bool.eq_false_iff.mpr fun hd => hn later (by rw [heq, eq_of_beq hd])
      unfold decimalLiteral
      rw [splitDigits_append (by decide) hfound (hsettled.congr (by decide) hagrees)]
      dsimp only
      rw [splitExponent?_eq_none hexponent hagrees]
      dsimp only
      split
      · exact absurd (hdot' _ _ rfl) (by decide)
      · exact absurd (hn' _ _ rfl) (by decide)
      · rfl

theorem ne_nil_of_radixLiteral? {form : NumberKind} {text : List Char}
    (h : radixLiteral? s = some (form, text)) : text ≠ [] := by
  have hform {form kind : NumberKind} {lead rest : List Char} {p : Char → Bool}
      (h : radixForm? form p lead rest = some (kind, text)) : text ≠ [] := by
    unfold radixForm? at h
    dsimp only at h
    split at h
    · exact absurd h (by simp)
    · next hdigits =>
      rintro rfl
      have htext := (Prod.mk.inj (Option.some.inj h)).2
      simp only [List.append_eq_nil_iff] at htext
      exact hdigits htext.1.2
  unfold radixLiteral? at h
  split at h
  · split at h
    · exact hform h
    · split at h
      · exact hform h
      · split at h
        · exact hform h
        · split at h
          · exact hform h
          · exact absurd h (by simp)
  · exact absurd h (by simp)

theorem ne_nil_of_decimalLiteral {c : Char} (hc : c.isDigit = true) :
    (decimalLiteral (c :: s)).2 ≠ [] := by
  unfold decimalLiteral
  dsimp only
  generalize hfound : splitDigits Char.isDigit (c :: s) = found
  obtain ⟨whole, tail⟩ := found
  have hwhole := whole_ne_nil hc hfound
  dsimp only
  split
  · simp [hwhole]
  · split
    · split
      · exact hwhole
      · simp [hwhole]
    · simp [hwhole]
    · exact hwhole

/-- A number has the digit that it begins with. -/
theorem cons_of_literal? {form : NumberKind} {text : List Char} {c : Char}
    (h : literal? (c :: s) = some (form, text)) : c.isDigit = true ∧ ∃ tail, text = c :: tail := by
  have hprefix := prefix_of_literal? h
  unfold literal? at h
  dsimp only at h
  split at h
  · next hc =>
    have hne : text ≠ [] := by
      cases hradix : radixLiteral? (c :: s) with
      | some found =>
        rw [hradix] at h
        obtain rfl := Option.some.inj h
        exact ne_nil_of_radixLiteral? hradix
      | none =>
        rw [hradix] at h
        have hdecimal := ne_nil_of_decimalLiteral (s := s) hc
        rw [show decimalLiteral (c :: s) = (form, text) from Option.some.inj h] at hdecimal
        exact hdecimal
    refine ⟨hc, ?_⟩
    cases text with
    | nil => exact absurd rfl hne
    | cons d tail =>
      obtain ⟨rfl, -⟩ := List.cons_prefix_cons.mp hprefix
      exact ⟨tail, rfl⟩
  · exact absurd h (by simp)

/-- **A number** is the same before texts that go on alike. -/
theorem literal?_append {form : NumberKind} {tail : List Char} {c : Char}
    (h : literal? (c :: s) = some (form, c :: tail)) (hs : s = tail ++ old)
    (hagrees : Agrees old new) : literal? (c :: (tail ++ new)) = some (form, c :: tail) := by
  obtain ⟨hc, -⟩ := cons_of_literal? h
  have hsplit : c :: s = c :: tail ++ old := by rw [hs, List.cons_append]
  unfold literal? at h ⊢
  dsimp only at h ⊢
  rw [if_pos hc] at h ⊢
  cases hradix : radixLiteral? (c :: s) with
  | some found =>
    rw [hradix] at h
    obtain rfl := Option.some.inj h
    have hnew := radixLiteral?_append hradix hsplit hagrees
    rw [List.cons_append] at hnew
    rw [hnew]
    rfl
  | none =>
    rw [hradix] at h
    have hnew := decimalLiteral_append hc (Option.some.inj h) hsplit hagrees
    rw [hsplit] at hradix
    have hnone := radixLiteral?_eq_none hradix (hagrees.append (c :: tail))
    rw [List.cons_append] at hnew hnone
    rw [hnone, hnew]
    rfl

end Number

end ScriptLink
