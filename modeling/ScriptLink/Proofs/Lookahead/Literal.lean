import ScriptLink.Proofs.Literal
import ScriptLink.Proofs.Lookahead.Agreement

/-!
# Literals and comments before another text

Strings, block comments and template text end at a mark of their own, so nothing behind it counts.
A regular expression is one only where an expression can end behind it, so here the text has to go
on alike.

* **`Quoted.body?_append`**, **`Comment.block?_append`**, **`Template.segment?_append`** — what is
  matched is matched again before any other text.
* **`RegExp.literal?_append`**, **`RegExp.literal?_eq_none`** — before a text that goes on alike, a
  regular expression stays one, and a slash that begins none does not begin one.
-/

namespace ScriptLink

/-! ## Strings, comments and template text -/

namespace Quoted

theorem body?_cons (quote : Char) {c : Char} (hc : c ≠ '\\') (rest : List Char) :
    body? quote (c :: rest) =
      if c == '\n' || c == '\r' then none
      else if c == quote then some [] else (body? quote rest).map (c :: ·) := by
  rw [body?]
  · exact fun h => absurd h hc
  · exact fun _ _ h => absurd h hc

/-- A string ends at its quote, whatever follows. -/
theorem body?_append {quote : Char} {s body : List Char} (h : body? quote s = some body)
    (new : List Char) : body? quote (body ++ quote :: new) = some body := by
  fun_induction body? quote s generalizing body with
  | case1 => exact absurd h (by simp)
  | case2 => exact absurd h (by simp)
  | case3 c rest ih =>
    obtain ⟨later, hlater, rfl⟩ := Option.map_eq_some_iff.mp h
    show (body? quote (later ++ quote :: new)).map _ = _
    rw [ih hlater]
    rfl
  | case4 => exact absurd h (by simp)
  | case5 c rest hend hslash hbreak hquote =>
    obtain rfl := Option.some.inj h
    obtain rfl := eq_of_beq hquote
    have hne : c ≠ '\\' := fun hc => by
      cases rest with
      | nil => exact hend hc rfl
      | cons _ _ => exact hslash _ _ hc rfl
    rw [List.nil_append, body?_cons c hne, if_neg hbreak, if_pos hquote]
  | case6 c rest hend hslash hbreak hquote ih =>
    obtain ⟨later, hlater, rfl⟩ := Option.map_eq_some_iff.mp h
    have hne : c ≠ '\\' := fun hc => by
      cases rest with
      | nil => exact hend hc rfl
      | cons _ _ => exact hslash _ _ hc rfl
    rw [List.cons_append, body?_cons quote hne, if_neg hbreak, if_neg hquote, ih hlater]
    rfl

end Quoted

namespace Comment

theorem ne_nil_of_throughClose? {s text : List Char} (h : throughClose? s = some text) :
    text ≠ [] := by
  unfold throughClose? at h
  split at h
  · exact absurd h (by simp)
  · rw [← Option.some.inj h]
    simp
  · obtain ⟨later, -, rfl⟩ := Option.map_eq_some_iff.mp h
    simp

theorem throughClose?_append {s text : List Char} (h : throughClose? s = some text)
    (new : List Char) : throughClose? (text ++ new) = some text := by
  fun_induction throughClose? s generalizing text with
  | case1 => exact absurd h (by simp)
  | case2 rest =>
    obtain rfl := Option.some.inj h
    rfl
  | case3 c rest hclose ih =>
    obtain ⟨later, hlater, rfl⟩ := Option.map_eq_some_iff.mp h
    obtain ⟨after, rfl⟩ := prefix_of_throughClose? hlater
    rw [List.cons_append, throughClose?, ih hlater]
    · rfl
    · intro tail hc heq
      cases later with
      | nil => exact ne_nil_of_throughClose? hlater rfl
      | cons d more => exact hclose (more ++ after) hc (by
          obtain ⟨rfl, -⟩ := List.cons.inj heq
          rfl)

theorem isDoc_iff {s : List Char} :
    isDoc s = true ↔ ∃ rest, s = '*' :: rest ∧ ∀ later, rest ≠ '/' :: later := by
  unfold isDoc
  split
  · simp
  · next rest hslash =>
    exact iff_of_true rfl ⟨rest, rfl, fun later heq => hslash later (by rw [heq])⟩
  · next hslash hstar =>
    refine iff_of_false (by simp) ?_
    rintro ⟨rest, rfl, -⟩
    exact hstar rest rfl

/-- What kind of comment it is, is seen before the comment ends. -/
theorem isDoc_append {rest text : List Char} (h : block? rest = some text) (new : List Char) :
    isDoc (text ++ new) = isDoc rest := by
  unfold block? at h
  split at h
  · next hdoc =>
    obtain ⟨later, hlater, rfl⟩ := Option.map_eq_some_iff.mp h
    obtain ⟨body, rfl, hslash⟩ := isDoc_iff.mp hdoc
    obtain ⟨after, heq⟩ := prefix_of_throughClose? hlater
    rw [hdoc]
    refine isDoc_iff.mpr ⟨later ++ new, rfl, fun tail htail => ?_⟩
    cases later with
    | nil => exact ne_nil_of_throughClose? hlater rfl
    | cons d more =>
      obtain ⟨rfl, -⟩ := List.cons.inj htail
      exact hslash (more ++ after) heq.symm
  · next hplain =>
    rw [Bool.eq_false_iff.mpr hplain]
    refine Bool.eq_false_iff.mpr fun hdoc => hplain ?_
    obtain ⟨body, heq, hslash⟩ := isDoc_iff.mp hdoc
    obtain ⟨after, rfl⟩ := prefix_of_throughClose? h
    -- a comment that closes at once has both characters of the mark in its text
    cases text with
    | nil => exact absurd rfl (ne_nil_of_throughClose? h)
    | cons c more =>
      obtain ⟨rfl, rfl⟩ := List.cons.inj heq
      refine isDoc_iff.mpr ⟨more ++ after, rfl, fun later hlater => ?_⟩
      have hclosed : throughClose? ('*' :: (more ++ after)) = some ['*', '/'] := by
        rw [hlater]
        rfl
      obtain ⟨-, rfl⟩ := List.cons.inj (Option.some.inj (h.symm.trans hclosed))
      exact hslash new rfl

/-- A block comment ends at its mark, whatever follows. -/
theorem block?_append {rest text : List Char} (h : block? rest = some text) (new : List Char) :
    block? (text ++ new) = some text := by
  have hkind := isDoc_append h new
  unfold block? at h ⊢
  rw [hkind]
  split at h
  · next hdoc =>
    obtain ⟨later, hlater, rfl⟩ := Option.map_eq_some_iff.mp h
    rw [if_pos hdoc, List.cons_append, List.drop_one, List.tail_cons,
      throughClose?_append hlater]
    rfl
  · next hplain =>
    rw [if_neg hplain]
    exact throughClose?_append h new

end Comment

namespace Template

theorem segment?_cons {c : Char} (hslash : c ≠ '\\') (htick : c ≠ '\x60') {rest : List Char}
    (hopener : ∀ later, c = '$' → rest ≠ '\x7b' :: later) :
    segment? (c :: rest) = (segment? rest).map (·.cons c) := by
  rw [segment?]
  · exact fun h => absurd h hslash
  · exact fun _ _ h => absurd h hslash
  · exact fun h => absurd h htick
  · exact hopener

/-- A segment through the closing back-tick ends there, whatever follows. A segment that stops
before an interpolation stops there as long as the interpolation opens. -/
theorem segment?_append {s : List Char} {segment : Segment} (h : segment? s = some segment)
    {new : List Char} (hnew : segment.closes = false → ['$', '\x7b'] <+: new) :
    segment? (segment.text ++ new) = some segment := by
  fun_induction segment? s generalizing segment with
  | case1 => exact absurd h (by simp)
  | case2 => exact absurd h (by simp)
  | case3 c rest ih =>
    obtain ⟨later, hlater, rfl⟩ := Option.map_eq_some_iff.mp h
    show (segment? (later.text ++ new)).map _ = _
    rw [ih hlater hnew]
    rfl
  | case4 rest =>
    obtain rfl := Option.some.inj h
    rfl
  | case5 rest =>
    obtain rfl := Option.some.inj h
    obtain ⟨later, rfl⟩ := hnew rfl
    rfl
  | case6 c rest hend hslash htick hopener ih =>
    obtain ⟨later, hlater, rfl⟩ := Option.map_eq_some_iff.mp h
    obtain ⟨after, hsplit⟩ := prefix_of_segment? hlater
    have hne : c ≠ '\\' := fun hc => by
      cases rest with
      | nil => exact hend hc rfl
      | cons _ _ => exact hslash _ _ hc rfl
    show segment? (c :: (later.text ++ new)) = some (later.cons c)
    rw [segment?_cons hne htick, ih hlater hnew]
    · rfl
    · intro tail hc heq
      obtain ⟨text, closes⟩ := later
      cases text with
      | nil =>
        -- the opener stands right behind, and it does not begin with a brace
        obtain ⟨behind, rfl⟩ := opens_of_empty hlater
        obtain ⟨-, rfl⟩ := Segment.mk.inj (Option.some.inj hlater)
        obtain ⟨later, rfl⟩ := hnew rfl
        exact absurd (List.cons.inj heq).1 (by decide)
      | cons d more =>
        obtain ⟨rfl, -⟩ := List.cons.inj heq
        exact hopener (more ++ after) hc hsplit.symm

end Template

/-! ## Regular expressions -/

namespace RegExp

theorem body?_cons {c : Char} (hc : c ≠ '\\') (rest : List Char) :
    body? (c :: rest) =
      if isLineBreak c then none
      else if c == '/' then some ([], rest)
      else (body? rest).map fun (body, tail) => (c :: body, tail) := by
  rw [body?]
  · exact fun h => absurd h hc
  · exact fun _ _ h => absurd h hc

/-- A body ends at its slash, whatever follows. -/
theorem body?_append {s body tail : List Char} (h : body? s = some (body, tail))
    (new : List Char) : body? (body ++ '/' :: new) = some (body, new) := by
  fun_induction body? s generalizing body with
  | case1 => exact absurd h (by simp)
  | case2 => exact absurd h (by simp)
  | case3 => exact absurd h (by simp)
  | case4 c rest hbreak ih =>
    obtain ⟨⟨later, _⟩, hlater, heq⟩ := Option.map_eq_some_iff.mp h
    obtain ⟨rfl, rfl⟩ := Prod.mk.inj heq
    show body? ('\\' :: c :: (later ++ '/' :: new)) = _
    rw [body?, if_neg hbreak, ih hlater]
    rfl
  | case5 => exact absurd h (by simp)
  | case6 c rest _ _ _ hslash =>
    obtain ⟨rfl, rfl⟩ := Prod.mk.inj (Option.some.inj h)
    rfl
  | case7 c rest hend hescape hbreak hslash ih =>
    obtain ⟨⟨later, _⟩, hlater, heq⟩ := Option.map_eq_some_iff.mp h
    obtain ⟨rfl, rfl⟩ := Prod.mk.inj heq
    have hne : c ≠ '\\' := fun hc => by
      cases rest with
      | nil => exact hend hc rfl
      | cons _ _ => exact hescape _ _ hc rfl
    rw [List.cons_append, body?_cons hne, if_neg hbreak, if_neg hslash, ih hlater]
    rfl

/-- Letters belong to the body. -/
theorem body?_letters {word : List Char}
    (hword : ∀ c ∈ word, c ≠ '\\' ∧ isLineBreak c = false ∧ c ≠ '/') (rest : List Char) :
    body? (word ++ rest) = (body? rest).map fun (body, tail) => (word ++ body, tail) := by
  induction word with
  | nil => simp
  | cons c more ih =>
    obtain ⟨hescape, hbreak, hslash⟩ := hword c List.mem_cons_self
    rw [List.cons_append, body?_cons hescape, if_neg (by simp [hbreak]), if_neg (by simp [hslash]),
      ih fun d hd => hword d (List.mem_cons_of_mem _ hd), Option.map_map]
    rfl

/-- A backslash takes the next character along, and letters behind it belong to the body too. -/
theorem body?_escaped (c : Char) (word : List Char) (hc : isLineBreak c = false)
    (hword : ∀ c ∈ word, c ≠ '\\' ∧ isLineBreak c = false ∧ c ≠ '/') (rest : List Char) :
    body? ('\\' :: c :: (word ++ rest)) =
      (body? rest).map fun (body, tail) => (('\\' :: c :: word) ++ body, tail) := by
  rw [body?, if_neg (by simp [hc]), body?_letters hword, Option.map_map]
  rfl

/-- Two searches for the end of a body that come to the same: both find none, or both find one and
what is behind it goes on alike. -/
inductive Similar : Option (List Char × List Char) → Option (List Char × List Char) → Prop where
  | none : Similar none none
  | some {body body' tail tail' : List Char} (hbody : body = [] ↔ body' = [])
      (htail : Agrees tail tail') : Similar (some (body, tail)) (some (body', tail'))

theorem Similar.map {found found' : Option (List Char × List Char)} (h : Similar found found')
    {part part' : List Char} (hpart : part ≠ []) (hpart' : part' ≠ []) :
    Similar (found.map fun (body, tail) => (part ++ body, tail))
      (found'.map fun (body, tail) => (part' ++ body, tail)) := by
  cases h with
  | none => exact .none
  | some hbody htail => exact .some (by simp [hpart, hpart']) htail

/-- The search goes alike in texts that go on alike. By induction on the length, since a backslash
takes the next character along. -/
theorem similar_of_agrees (length : Nat) {old new : List Char} (hlength : old.length ≤ length)
    (h : Agrees old new) : Similar (body? old) (body? new) := by
  induction length generalizing old new with
  | zero =>
    obtain rfl : old = [] := List.length_eq_zero_iff.mp (by omega)
    rcases h.head_cases with ⟨-, rfl⟩ | ⟨c, rest, rest', hc, -⟩ | ⟨c, rest, rest', -, hc, -⟩
    · exact .none
    · exact absurd hc (by simp)
    · exact absurd hc (by simp)
  | succ length ih =>
    have hnil : ∀ c ∈ [], c ≠ '\\' ∧ isLineBreak c = false ∧ c ≠ '/' := by simp
    have hbreakNone {c : Char} (hbreak : isLineBreak c = true) (rest : List Char) :
        body? (c :: rest) = none := by
      have hc : c ≠ '\\' := by rintro rfl; exact absurd hbreak (by decide)
      rw [body?_cons hc, if_pos hbreak]
    cases h with
    | nil => exact .none
    | lineBreak hbreak =>
      rw [hbreakNone hbreak, hbreakNone hbreak]
      exact .none
    | @cons c old new hrest =>
      by_cases hescape : c = '\\'
      · subst hescape
        cases hrest with
        | nil => exact .none
        | lineBreak hbreak =>
          rw [body?, if_pos hbreak, body?, if_pos hbreak]
          exact .none
        | @cons d old new hrest =>
          by_cases hbreak : isLineBreak d = true
          · rw [body?, if_pos hbreak, body?, if_pos hbreak]
            exact .none
          · have hd : isLineBreak d = false := by simpa using hbreak
            have hold := body?_escaped d [] hd hnil old
            have hnew := body?_escaped d [] hd hnil new
            rw [List.nil_append] at hold hnew
            rw [hold, hnew]
            exact (ih (by simp only [List.length_cons] at hlength; omega) hrest).map (by simp)
              (by simp)
        | @word word old new hword hrest =>
          have hshort : old.length ≤ length := by
            simp only [List.length_cons, List.length_append] at hlength
            omega
          have hvar := body?_escaped 'v' ['a', 'r'] (by decide) (by decide) new
          rw [show body? ('\\' :: 'v' :: 'a' :: 'r' :: new) = _ from hvar]
          rcases hword with rfl | rfl
          · have hlet := body?_escaped 'l' ['e', 't'] (by decide) (by decide) old
            rw [show body? ('\\' :: (['l', 'e', 't'] ++ old)) = _ from hlet]
            exact (ih hshort hrest).map (by simp) (by simp)
          · have hconst := body?_escaped 'c' ['o', 'n', 's', 't'] (by decide) (by decide) old
            rw [show body? ('\\' :: (['c', 'o', 'n', 's', 't'] ++ old)) = _ from hconst]
            exact (ih hshort hrest).map (by simp) (by simp)
      · rw [body?_cons hescape, body?_cons hescape]
        by_cases hbreak : isLineBreak c = true
        · rw [if_pos hbreak, if_pos hbreak]
          exact .none
        · rw [if_neg hbreak, if_neg hbreak]
          by_cases hslash : (c == '/') = true
          · rw [if_pos hslash, if_pos hslash]
            exact .some Iff.rfl hrest
          · rw [if_neg hslash, if_neg hslash]
            have hmap := (ih (by simpa using hlength) hrest).map (List.cons_ne_nil c [])
              (List.cons_ne_nil c [])
            exact hmap
    | @word word old new hword hrest =>
      have hletters : ∀ c ∈ word, c ≠ '\\' ∧ isLineBreak c = false ∧ c ≠ '/' := by
        rcases hword with rfl | rfl <;> decide
      have hvar : ∀ c ∈ ['v', 'a', 'r'], c ≠ '\\' ∧ isLineBreak c = false ∧ c ≠ '/' := by decide
      have hne : word ≠ [] := by rcases hword with rfl | rfl <;> simp
      have hshort : old.length ≤ length := by
        have := List.length_pos_iff.mpr hne
        rw [List.length_append] at hlength
        omega
      have hnew := body?_letters hvar new
      rw [body?_letters hletters, show body? ('v' :: 'a' :: 'r' :: new) = _ from hnew]
      exact (ih hshort hrest).map hne (by simp)

theorem apart_isFlag : Agrees.Apart isFlag := by unfold Agrees.Apart; decide

/-- Whether an expression can end here is seen before the next line break. -/
theorem endsExpression_congr {old new : List Char} (h : Agrees old new) :
    endsExpression old = endsExpression new := by
  have hp : Agrees.Apart fun c => c == ' ' || c == '\t' := by unfold Agrees.Apart; decide
  have hrest := (h.takeWhile_eq hp).2
  unfold endsExpression
  rcases hrest.head_cases with ⟨hold, hnew⟩ | ⟨c, rest, rest', hold, hnew, -⟩ |
    ⟨c, rest, rest', hc, hold, hnew⟩
  · rw [hold, hnew]
  · rw [hold, hnew]
  · rw [hold, hnew]
    rcases hc with rfl | rfl <;> rfl

theorem literal?_of_body {slash : Char} {rest body tail : List Char}
    (hbody : body? rest = some (body, tail)) (hne : body ≠ []) :
    literal? (slash :: rest) =
      if endsExpression (tail.dropWhile isFlag) then
        some (slash :: (body ++ '/' :: tail.takeWhile isFlag))
      else none := by
  unfold literal?
  dsimp only
  rw [hbody]
  cases body with
  | nil => exact absurd rfl hne
  | cons c more => rfl

theorem cons_of_literal? {slash : Char} {rest literal : List Char}
    (h : literal? (slash :: rest) = some literal) : ∃ part, literal = slash :: part := by
  unfold literal? at h
  dsimp only at h
  split at h
  · exact absurd h (by simp)
  · exact absurd h (by simp)
  · split at h
    · exact ⟨_, (Option.some.inj h).symm⟩
    · exact absurd h (by simp)

/-- What is a regular expression stays one. -/
theorem literal?_append {s part : List Char} (h : literal? ('/' :: s) = some ('/' :: part))
    {old new : List Char} (hs : s = part ++ old) (hagrees : Agrees old new) :
    literal? ('/' :: (part ++ new)) = some ('/' :: part) := by
  unfold literal? at h
  dsimp only at h
  split at h
  · exact absurd h (by simp)
  · exact absurd h (by simp)
  · next body tail hne hbody =>
    split at h
    · next hends =>
      obtain ⟨-, rfl⟩ := List.cons.inj (Option.some.inj h)
      have hsplit := body?_eq hbody
      rw [hs, List.append_assoc, List.append_cancel_left_eq, List.cons_append] at hsplit
      obtain ⟨-, htail⟩ := List.cons.inj hsplit
      have hflags : ∀ c ∈ tail.takeWhile isFlag, isFlag c = true :=
        fun c hc => List.all_eq_true.mp List.all_takeWhile c hc
      have hdrop : old = tail.dropWhile isFlag := by
        have hboth := htail.trans (List.takeWhile_append_dropWhile (p := isFlag)).symm
        exact List.append_cancel_left hboth
      have hstops : Stops isFlag new := by
        refine hagrees.stops (by decide) ?_
        rw [hdrop]
        exact Stops.dropWhile isFlag tail
      rw [List.append_assoc, List.cons_append,
        literal?_of_body (body?_append hbody _) fun hnil => hne hnil,
        hstops.takeWhile_append hflags, hstops.dropWhile_append hflags,
        ← endsExpression_congr hagrees, hdrop, if_pos hends]
    · exact absurd h (by simp)

/-- What is none does not become one. -/
theorem literal?_eq_none {old new : List Char} (h : literal? ('/' :: old) = none)
    (hagrees : Agrees old new) : literal? ('/' :: new) = none := by
  have hsimilar := similar_of_agrees old.length (Nat.le_refl _) hagrees
  generalize hold : body? old = found at hsimilar
  generalize hnew : body? new = found' at hsimilar
  cases hsimilar with
  | none =>
    unfold literal?
    dsimp only
    rw [hnew]
  | @some body body' tail tail' hbody htail =>
    by_cases hne : body' = []
    · subst hne
      unfold literal?
      dsimp only
      rw [hnew]
    · rw [literal?_of_body hold fun hnil => hne (hbody.mp hnil)] at h
      rw [literal?_of_body hnew hne, ← endsExpression_congr (htail.takeWhile_eq apart_isFlag).2]
      split at h
      · exact absurd h (by simp)
      · next hends => rw [if_neg hends]

end RegExp

end ScriptLink
