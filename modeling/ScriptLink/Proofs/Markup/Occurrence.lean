import Mathlib.Data.List.Basic
import ScriptLink.Marker

/-!
# Where a pattern is found

`occurrences` is one loop over a text that counts down the characters of the last find. This module
says what the loop lists, without the counting: a text is passed over character by character, and
where the pattern is found, the whole find is taken at once.

* **`Consumes`** — a pattern takes a suffix off, with one lemma for each of the pieces that tags are
  made of.
* **`Finds`** — the finds in a text, from left to right and without overlaps.
  **`finds_iff`** — `occurrencesFrom` lists just them.
* **`place_of_mem_occurrencesFrom`** — the text that a find stands for.
* **`Shows`** — what is found in a part of a text, given what follows the part. A text that is put
  together from parts is searched part by part.
-/

namespace ScriptLink.Markup

variable {α : Type} {pattern : Pattern α} {fold : Char → Char} {word text rest : List Char}

/-- The characters of a find in a text. -/
def Occurrence.textIn (found : Occurrence α) (text : List Char) : List Char :=
  (text.drop found.start).take (found.stop - found.start)

/-- A pattern takes so many characters at least off the front of a text. -/
def Consumes (least : Nat) (pattern : Pattern α) : Prop :=
  ∀ text value rest, pattern text = some (value, rest) →
    rest <:+ text ∧ rest.length + least ≤ text.length

/-! ## Patterns consume -/

theorem suffix_word? (h : word? fold word text = some rest) :
    rest <:+ text ∧ rest.length + word.length = text.length := by
  fun_induction word? fold word text with
  | case1 text =>
    obtain rfl := Option.some.inj h
    exact ⟨List.suffix_refl _, rfl⟩
  | case2 => exact absurd h (by simp)
  | case3 word c text ih =>
    obtain ⟨hsuffix, hlength⟩ := ih h
    exact ⟨hsuffix.trans (List.suffix_cons c text), congrArg Nat.succ hlength⟩
  | case4 => exact absurd h (by simp)

theorem suffix_blanks (text : List Char) : blanks text <:+ text := List.dropWhile_suffix _

theorem suffix_blanks? (h : blanks? text = some rest) : rest <:+ text := by
  unfold blanks? at h
  split at h
  · exact absurd h (by simp)
  · next c later =>
    split at h
    · obtain rfl := Option.some.inj h
      exact (suffix_blanks later).trans (List.suffix_cons c later)
    · exact absurd h (by simp)

theorem suffix_quote? (h : quote? text = some rest) : rest <:+ text := by
  unfold quote? at h
  split at h
  · exact absurd h (by simp)
  · next c later =>
    split at h
    · obtain rfl := Option.some.inj h
      exact List.suffix_cons c _
    · exact absurd h (by simp)

theorem suffix_attribute? {name : String} {isValue : Char → Bool} {value : List Char}
    (h : attribute? fold name isValue text = some (value, rest)) : rest <:+ text := by
  obtain ⟨behindBlanks, hblanks, h⟩ := Option.bind_eq_some_iff.mp h
  obtain ⟨behindName, hname, h⟩ := Option.bind_eq_some_iff.mp h
  obtain ⟨behindSign, hsign, h⟩ := Option.bind_eq_some_iff.mp h
  obtain ⟨opened, hopen, h⟩ := Option.bind_eq_some_iff.mp h
  obtain ⟨closed, hclose, h⟩ := Option.bind_eq_some_iff.mp h
  split at h
  · exact absurd h (by simp)
  · obtain ⟨-, rfl⟩ := Prod.mk.inj (Option.some.inj h)
    have hvalue : closed <:+ opened := (suffix_quote? hclose).trans (List.dropWhile_suffix _)
    have hsigned : opened <:+ behindSign := (suffix_quote? hopen).trans (suffix_blanks _)
    have hnamed : behindSign <:+ behindName := (suffix_word? hsign).1.trans (suffix_blanks _)
    have hlead : behindName <:+ text := (suffix_word? hname).1.trans (suffix_blanks? hblanks)
    exact hvalue.trans (hsigned.trans (hnamed.trans hlead))

theorem suffix_tagEnd? (h : tagEnd? text = some rest) : rest <:+ text := by
  have hslash : (word? id ['/'] (blanks text)).getD (blanks text) <:+ blanks text := by
    cases hword : word? id ['/'] (blanks text) with
    | none => exact List.suffix_refl _
    | some later => exact (suffix_word? hword).1
  exact (suffix_word? h).1.trans (hslash.trans (suffix_blanks text))

/-! ## Finds -/

/-- Characters to be skipped may be dropped. -/
theorem occurrencesFrom_drop (position skip : Nat) (text : List Char) :
    occurrencesFrom pattern position skip text =
      occurrencesFrom pattern (position + skip) 0 (text.drop skip) := by
  induction skip generalizing position text with
  | zero => rfl
  | succ skip ih =>
    cases text with
    | nil => rfl
    | cons c rest =>
      show occurrencesFrom pattern (position + 1) skip rest = _
      rw [ih, List.drop_succ_cons, Nat.add_assoc, Nat.add_comm 1]

theorem occurrencesFrom_pass {c : Char} (position : Nat) (hnone : pattern (c :: rest) = none) :
    occurrencesFrom pattern position 0 (c :: rest) =
      occurrencesFrom pattern (position + 1) 0 rest := by
  simp only [occurrencesFrom, hnone]

theorem occurrencesFrom_find {part : List Char} {value : α} (position : Nat) (hpart : part ≠ [])
    (hsome : pattern (part ++ rest) = some (value, rest)) :
    occurrencesFrom pattern position 0 (part ++ rest) =
      ⟨position, position + part.length, value⟩ ::
        occurrencesFrom pattern (position + part.length) 0 rest := by
  obtain ⟨c, later, rfl⟩ := List.exists_cons_of_ne_nil hpart
  rw [List.cons_append] at hsome ⊢
  have hlength : (c :: (later ++ rest)).length - rest.length = later.length + 1 := by
    simp only [List.length_cons, List.length_append]
    omega
  simp only [occurrencesFrom, hsome, hlength]
  rw [occurrencesFrom_drop, Nat.add_sub_cancel, List.drop_left, List.length_cons,
    Nat.add_right_comm, Nat.add_assoc]

/-- A find in the same text with some more characters in front. -/
def Occurrence.shift (offset : Nat) (found : Occurrence α) : Occurrence α :=
  ⟨found.start + offset, found.stop + offset, found.value⟩

/-- What is found does not depend on where the text begins. -/
theorem occurrencesFrom_shift (position offset skip : Nat) (text : List Char) :
    occurrencesFrom pattern (position + offset) skip text =
      (occurrencesFrom pattern position skip text).map (·.shift offset) := by
  fun_induction occurrencesFrom pattern position skip text with
  | case1 => simp [occurrencesFrom]
  | case2 position c rest skip ih => rw [occurrencesFrom, Nat.add_right_comm, ih]
  | case3 position c rest hnone ih =>
    simp only [occurrencesFrom, hnone]
    rw [Nat.add_right_comm, ih]
  | case4 position c rest value tail hsome length ih =>
    simp only [occurrencesFrom, hsome]
    rw [Nat.add_right_comm position offset 1, ih, Nat.add_right_comm position offset]
    rfl

/-- The finds in a text that begins at a position, from left to right: a character at which the
pattern is not found is passed over, and the search goes on behind each find. -/
inductive Finds (pattern : Pattern α) : Nat → List Char → List (Occurrence α) → Prop where
  | nil {position : Nat} : Finds pattern position [] []
  | pass {position : Nat} {c : Char} {rest : List Char} {found : List (Occurrence α)}
      (hnone : pattern (c :: rest) = none) (hrest : Finds pattern (position + 1) rest found) :
      Finds pattern position (c :: rest) found
  | find {position : Nat} {part rest : List Char} {value : α} {found : List (Occurrence α)}
      (hpart : part ≠ []) (hsome : pattern (part ++ rest) = some (value, rest))
      (hrest : Finds pattern (position + part.length) rest found) :
      Finds pattern position (part ++ rest) (⟨position, position + part.length, value⟩ :: found)

theorem Finds.eq_occurrencesFrom {position : Nat} {found : List (Occurrence α)}
    (h : Finds pattern position text found) : occurrencesFrom pattern position 0 text = found := by
  induction h with
  | nil => rfl
  | pass hnone _ ih => rw [occurrencesFrom_pass _ hnone, ih]
  | find hpart hsome _ ih => rw [occurrencesFrom_find _ hpart hsome, ih]

/-- A pattern that takes something has its finds in every text. -/
theorem finds_occurrencesFrom (hpattern : Consumes 1 pattern) (position : Nat) (text : List Char) :
    Finds pattern position text (occurrencesFrom pattern position 0 text) := by
  induction hlength : text.length using Nat.strongRecOn generalizing position text with
  | ind length ih =>
    subst hlength
    match text with
    | [] => exact .nil
    | c :: rest =>
      cases hfound : pattern (c :: rest) with
      | none =>
        rw [occurrencesFrom_pass _ hfound]
        exact .pass hfound (ih _ (Nat.lt_succ_self _) _ _ rfl)
      | some find =>
        obtain ⟨value, tail⟩ := find
        obtain ⟨⟨part, hpart⟩, hleast⟩ := hpattern _ _ _ hfound
        have hne : part ≠ [] := by
          rintro rfl
          rw [← hpart, List.nil_append] at hleast
          omega
        rw [← hpart] at hfound ⊢
        rw [occurrencesFrom_find _ hne hfound]
        exact .find hne hfound (ih _ hleast _ _ rfl)

/-- **The loop lists the finds**, and nothing else is a list of the finds. -/
theorem finds_iff (hpattern : Consumes 1 pattern) {position : Nat} {found : List (Occurrence α)} :
    Finds pattern position text found ↔ found = occurrencesFrom pattern position 0 text :=
  ⟨fun h => h.eq_occurrencesFrom.symm, fun h => h ▸ finds_occurrencesFrom hpattern position text⟩

/-- The finds lie in the text. -/
theorem Finds.within {position : Nat} {found : List (Occurrence α)}
    (h : Finds pattern position text found) : ∀ find ∈ found,
      position ≤ find.start ∧ find.start ≤ find.stop ∧ find.stop ≤ position + text.length := by
  induction h with
  | nil => simp
  | pass _ _ ih =>
    intro find hmem
    have hfind := ih find hmem
    rw [List.length_cons]
    omega
  | find _ _ _ ih =>
    rw [List.length_append]
    refine List.forall_mem_cons.mpr ⟨?_, fun find hmem => ?_⟩
    · dsimp only
      omega
    · have hfind := ih find hmem
      omega

/-- Of two finds the later one begins where the earlier one has ended, or behind. -/
theorem Finds.ordered {position : Nat} {found : List (Occurrence α)}
    (h : Finds pattern position text found) :
    found.Pairwise fun earlier later => earlier.stop ≤ later.start := by
  induction h with
  | nil => exact .nil
  | pass _ _ ih => exact ih
  | find _ _ hrest ih => exact .cons (fun later hmem => (hrest.within later hmem).1) ih

/-- **A find stands for a part of the text**, which the pattern takes off what begins there. -/
theorem place_of_mem_occurrencesFrom {least : Nat} (hpattern : Consumes least pattern)
    {position skip : Nat} {found : Occurrence α}
    (h : found ∈ occurrencesFrom pattern position skip text) :
    ∃ before part after, text = before ++ part ++ after ∧ least ≤ part.length ∧
      found.start = position + before.length ∧ found.stop = found.start + part.length ∧
      pattern (part ++ after) = some (found.value, after) := by
  fun_induction occurrencesFrom pattern position skip text with
  | case1 => exact absurd h List.not_mem_nil
  | case2 position c rest skip ih =>
    obtain ⟨before, part, after, rfl, hpart, hstart, hplace⟩ := ih h
    exact ⟨c :: before, part, after, rfl, hpart, by rw [hstart, List.length_cons]; omega, hplace⟩
  | case3 position c rest hnone ih =>
    obtain ⟨before, part, after, rfl, hpart, hstart, hplace⟩ := ih h
    exact ⟨c :: before, part, after, rfl, hpart, by rw [hstart, List.length_cons]; omega, hplace⟩
  | case4 position c rest value tail hsome length ih =>
    rcases List.mem_cons.mp h with rfl | hlater
    · obtain ⟨⟨part, hpart⟩, hleast⟩ := hpattern _ _ _ hsome
      have hlength : (c :: rest).length = part.length + tail.length := by
        rw [← hpart, List.length_append]
      refine ⟨[], part, tail, hpart.symm, by omega, rfl, ?_, hpart ▸ hsome⟩
      · show position + ((c :: rest).length - tail.length) = position + part.length
        omega
    · obtain ⟨before, part, after, rfl, hpart, hstart, hplace⟩ := ih hlater
      exact ⟨c :: before, part, after, rfl, hpart, by rw [hstart, List.length_cons]; omega, hplace⟩

/-! ## Part by part -/

/-- In `part`, which `next` follows, the pattern is found with these values. No find reaches out of
`part`. -/
def Shows (pattern : Pattern α) (part next : List Char) (values : List α) : Prop :=
  ∀ position, ∃ found, found.map (·.value) = values ∧
    occurrencesFrom pattern position 0 (part ++ next) =
      found ++ occurrencesFrom pattern (position + part.length) 0 next

section Shows

variable {c : Char} {part later next : List Char} {value : α} {values others : List α}

theorem Shows.nil : Shows pattern [] next [] := fun _ => ⟨[], rfl, rfl⟩

theorem Shows.append (h : Shows pattern part (later ++ next) values)
    (hlater : Shows pattern later next others) :
    Shows pattern (part ++ later) next (values ++ others) := by
  intro position
  obtain ⟨found, hvalues, heq⟩ := h position
  obtain ⟨behind, hothers, heq'⟩ := hlater (position + part.length)
  refine ⟨found ++ behind, by rw [List.map_append, hvalues, hothers], ?_⟩
  rw [List.append_assoc, heq, heq', List.append_assoc, List.length_append, Nat.add_assoc]

theorem Shows.pass (hnone : pattern (c :: (part ++ next)) = none)
    (h : Shows pattern part next values) : Shows pattern (c :: part) next values := by
  intro position
  obtain ⟨found, hvalues, heq⟩ := h (position + 1)
  refine ⟨found, hvalues, ?_⟩
  rw [List.cons_append, occurrencesFrom_pass _ hnone, heq, List.length_cons, Nat.add_assoc,
    Nat.add_comm 1]

theorem Shows.find (hpart : part ≠ []) (hsome : pattern (part ++ next) = some (value, next)) :
    Shows pattern part next [value] :=
  fun position => ⟨[⟨position, position + part.length, value⟩], rfl,
    occurrencesFrom_find position hpart hsome⟩

/-- Where the pattern is found at no place of a part, nothing is found in it. -/
theorem shows_nothing
    (h : ∀ later, later ≠ [] → later <:+ part → pattern (later ++ next) = none) :
    Shows pattern part next [] := by
  induction part with
  | nil => exact .nil
  | cons c part ih =>
    exact .pass (h _ (List.cons_ne_nil c part) (List.suffix_refl _))
      (ih fun later hne hlater => h later hne (hlater.trans (List.suffix_cons c part)))

theorem Shows.values_occurrences (h : Shows pattern text [] values) :
    (occurrences pattern text).map (·.value) = values := by
  obtain ⟨found, hvalues, heq⟩ := h 0
  rw [List.append_nil] at heq
  rw [occurrences, heq]
  simpa [occurrencesFrom] using hvalues

end Shows

end ScriptLink.Markup
