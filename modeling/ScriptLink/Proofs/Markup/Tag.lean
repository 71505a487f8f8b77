import ScriptLink.Proofs.Markup.Occurrence
import ScriptLink.Proofs.Step

/-!
# What a tag is

The patterns of markup read a text from the left and hand the rest on. Here they are told from the
other end: which texts are words and tags, by how they are spelled.

* **`eq_of_foldCase`** — only letters have other spellings.
* **`word?_eq_some_iff`** — a word is found exactly if the text begins with a spelling of it.
* **`IsTag`** — the texts that are an opening or a closing tag, and **`tag?_eq_some_iff`** — the
  pattern finds just them.
* **`element?_of_isTag`** — an element whose text has no closing tag in it.
-/

namespace ScriptLink

/-- Blanks stand between words. -/
theorem Unicode.isWord_of_isBlank {c : Char} (h : isBlank c = true) : isWord c = false := by
  have hapart : ∀ blank ∈ blankRanges, ∀ letters ∈ wordOnlyRanges,
      blank.2 < letters.1 ∨ letters.2 < blank.1 := by decide
  have hcontinue := Identifier.isContinue_of_isBlank h
  unfold Identifier.isContinue isXidContinue at hcontinue
  unfold isWord
  by_cases hascii : isAscii c = true
  · rw [if_pos hascii] at hcontinue ⊢
    rw [Bool.or_eq_false_iff, Bool.or_eq_false_iff] at hcontinue
    rw [Bool.or_eq_false_iff]
    exact ⟨(Bool.or_eq_false_iff.mp hcontinue.2).1, hcontinue.1.1⟩
  · rw [if_neg hascii] at hcontinue ⊢
    simp only [Bool.or_eq_false_iff] at hcontinue
    simp only [hcontinue.2, Bool.or_self, Bool.false_and, Bool.or_false]
    refine Bool.eq_false_iff.mpr fun hletters => ?_
    unfold isBlank at h
    rw [if_neg hascii] at h
    obtain ⟨blank, hblank, hlow, hhigh⟩ := (Ranges.contains_iff _ c).mp h
    obtain ⟨letters, hmem, hlow', hhigh'⟩ := (Ranges.contains_iff _ c).mp hletters
    rcases hapart blank hblank letters hmem with hlt | hlt <;> omega

namespace Markup

variable {fold : Char → Char} {name : String} {word text rest : List Char} {closes : Bool}

/-! ## Words -/

/-- Only small letters have other spellings. -/
theorem eq_of_foldCase {c mark : Char} (h : foldCase c = mark) (hmark : mark.isLower = false) :
    c = mark := by
  unfold foldCase at h
  split at h
  · exact absurd (h ▸ hmark) (by decide)
  · split at h
    · exact absurd (h ▸ hmark) (by decide)
    · unfold Char.toLower at h
      split at h
      · next hupper =>
        have hlower : mark.isLower = true := by
          subst h
          show (decide (_ ≤ _) && decide (_ ≤ _)) = true
          simp [UInt32.le_iff_toNat_le, UInt32.toNat_add] at hupper ⊢
          omega
        exact absurd (hlower.symm.trans hmark) (by simp)
      · exact h

/-- **A word is found if the text begins with a spelling of it.** -/
theorem word?_eq_some_iff :
    word? fold word text = some rest ↔ ∃ part, text = part ++ rest ∧ part.map fold = word := by
  fun_induction word? fold word text with
  | case1 text =>
    refine ⟨fun h => ⟨[], Option.some.inj h, rfl⟩, ?_⟩
    rintro ⟨part, rfl, hpart⟩
    rw [List.map_eq_nil_iff.mp hpart, List.nil_append]
  | case2 w word =>
    refine ⟨fun h => absurd h (by simp), ?_⟩
    rintro ⟨part, htext, hpart⟩
    rw [(List.append_eq_nil_iff.mp htext.symm).1] at hpart
    exact absurd hpart (by simp)
  | case3 word c text ih =>
    rw [ih]
    constructor
    · rintro ⟨part, rfl, rfl⟩
      exact ⟨c :: part, rfl, rfl⟩
    · rintro ⟨part, htext, hpart⟩
      obtain ⟨_, part, rfl, -, hpart⟩ := List.map_eq_cons_iff.mp hpart
      obtain ⟨-, rfl⟩ := List.cons.inj htext
      exact ⟨part, rfl, hpart⟩
  | case4 w word c text hne =>
    refine ⟨fun h => absurd h (by simp), ?_⟩
    rintro ⟨part, htext, hpart⟩
    obtain ⟨_, part, rfl, hfirst, -⟩ := List.map_eq_cons_iff.mp hpart
    obtain ⟨rfl, -⟩ := List.cons.inj htext
    exact absurd hfirst hne

/-- The rest behind a word is told from the end if the spelling is given. -/
theorem word?_of_map {part : List Char} (hpart : part.map fold = word) (rest : List Char) :
    word? fold word (part ++ rest) = some rest :=
  word?_eq_some_iff.mpr ⟨part, rfl, hpart⟩

/-- A single mark is found as it is written. -/
theorem word?_mark_eq_some_iff {mark : Char} :
    word? id [mark] text = some rest ↔ text = mark :: rest := by
  rw [word?_eq_some_iff]
  constructor
  · rintro ⟨part, rfl, hpart⟩
    rw [List.map_id] at hpart
    rw [hpart, List.singleton_append]
  · rintro rfl
    exact ⟨[mark], rfl, rfl⟩

/-! ## Tags -/

/-- The rest behind a name, as the pattern for tags reads it: the name ends there, and the tag goes
on to its first `>`. -/
theorem tagRest?_eq_some_iff :
    tagRest? name text = some rest ↔ ∃ word attributes, text = word ++ attributes ++ '>' :: rest ∧
      word.map foldCase = name.toList ∧ wordEnds (attributes ++ ['>']) = true ∧
      '>' ∉ attributes := by
  have hends : ∀ attributes later, wordEnds (attributes ++ '>' :: later) =
      wordEnds (attributes ++ ['>']) := by
    intro attributes later
    cases attributes <;> rfl
  constructor
  · intro h
    obtain ⟨behind, hword, hbehind⟩ := Option.bind_eq_some_iff.mp h
    obtain ⟨word, rfl, hname⟩ := word?_eq_some_iff.mp hword
    split at hbehind
    · next hboundary =>
      have hsplit := List.takeWhile_append_dropWhile (p := (· != '>')) (l := behind)
      rw [word?_mark_eq_some_iff.mp hbehind] at hsplit
      refine ⟨word, behind.takeWhile (· != '>'), ?_, hname, ?_, fun hmem => ?_⟩
      · rw [List.append_assoc, hsplit]
      · rw [← hends _ rest, hsplit]
        exact hboundary
      · exact absurd (List.all_eq_true.mp List.all_takeWhile _ hmem) (by simp)
    · exact absurd hbehind (by simp)
  · rintro ⟨word, attributes, rfl, hname, hboundary, hclean⟩
    have hall : ∀ c ∈ attributes, (c != '>') = true := by
      intro c hmem
      rw [bne_iff_ne]
      rintro rfl
      exact hclean hmem
    rw [List.append_assoc]
    refine Option.bind_eq_some_iff.mpr ⟨_, word?_of_map hname _, ?_⟩
    rw [hends, if_pos hboundary, List.dropWhile_append_of_pos hall]
    rfl

/-- An opening or a closing tag: the name in any spelling, which ends there, and anything up to the
first `>`. -/
inductive IsTag (name : String) (closes : Bool) : List Char → Prop where
  | intro {word attributes : List Char} (hname : word.map foldCase = name.toList)
      (hends : wordEnds (attributes ++ ['>']) = true) (hclean : '>' ∉ attributes) :
      IsTag name closes ('<' :: ((if closes then ['/'] else []) ++ word ++ attributes ++ ['>']))

theorem IsTag.ne_nil {tag : List Char} (h : IsTag name closes tag) : tag ≠ [] := by
  cases h with
  | intro => exact List.cons_ne_nil _ _

/-- **The pattern for tags finds the tags**, and takes each as it is. -/
theorem tag?_eq_some_iff {first : Char} (hfirst : name.toList.head? = some first)
    (hslash : first ≠ '/') :
    tag? name text = some (closes, rest) ↔ ∃ tag, text = tag ++ rest ∧ IsTag name closes tag := by
  constructor
  · intro h
    obtain ⟨behind, hopen, hbehind⟩ := Option.bind_eq_some_iff.mp h
    rw [word?_mark_eq_some_iff.mp hopen]
    split at hbehind
    · next later hclose =>
      rw [word?_mark_eq_some_iff.mp hclose]
      obtain ⟨_, hrest, heq⟩ := Option.map_eq_some_iff.mp hbehind
      obtain ⟨rfl, rfl⟩ := Prod.mk.inj heq
      obtain ⟨word, attributes, rfl, hname, hends, hclean⟩ := tagRest?_eq_some_iff.mp hrest
      exact ⟨_, by simp, @IsTag.intro _ true _ _ hname hends hclean⟩
    · obtain ⟨_, hrest, heq⟩ := Option.map_eq_some_iff.mp hbehind
      obtain ⟨rfl, rfl⟩ := Prod.mk.inj heq
      obtain ⟨word, attributes, rfl, hname, hends, hclean⟩ := tagRest?_eq_some_iff.mp hrest
      exact ⟨_, by simp, @IsTag.intro _ false _ _ hname hends hclean⟩
  · rintro ⟨_, rfl, @⟨word, attributes, hname, hends, hclean⟩⟩
    have hrest : tagRest? name (word ++ attributes ++ '>' :: rest) = some rest :=
      tagRest?_eq_some_iff.mpr ⟨word, attributes, rfl, hname, hends, hclean⟩
    cases closes with
    | true => simpa [tag?, word?] using hrest
    | false =>
      -- the name does not begin with a slash
      have hopen : word? id ['/'] (word ++ (attributes ++ '>' :: rest)) = none := by
        cases word with
        | nil => simp [← hname] at hfirst
        | cons c word =>
          have hc : c ≠ '/' := by
            rintro rfl
            rw [← hname] at hfirst
            exact hslash (Option.some.inj hfirst).symm
          simp [word?, hc]
      rw [List.append_assoc] at hrest
      simp [tag?, word?_mark_eq_some_iff.mpr rfl, hopen, hrest]

/-- A tag takes at least its `<`. -/
theorem consumes_tag? {first : Char} (hfirst : name.toList.head? = some first)
    (hslash : first ≠ '/') : Consumes 1 (tag? name) := by
  intro text closes rest h
  obtain ⟨_, rfl, ⟨_, _, _⟩⟩ := (tag?_eq_some_iff hfirst hslash).mp h
  refine ⟨List.suffix_append _ _, ?_⟩
  simp only [List.length_append, List.length_cons]
  omega

/-! ## Elements -/

/-- A closing tag without white space in it. -/
theorem closeTag?_of_map {part : List Char} (hpart : part.map foldCase = '<' :: '/' :: name.toList)
    (rest : List Char) : closeTag? name (part ++ '>' :: rest) = some rest :=
  Option.bind_eq_some_iff.mpr ⟨'>' :: rest, word?_of_map hpart _, rfl⟩

/-- The text of an element goes on to the first closing tag. -/
theorem untilClose?_append {behind : List Char}
    (hnone : ∀ later, later ≠ [] → later <:+ text → closeTag? name (later ++ behind) = none)
    (hclose : closeTag? name behind = some rest) :
    untilClose? name (text ++ behind) = some (text, rest) := by
  induction text with
  | nil =>
    cases behind with
    | nil => exact absurd hclose (by simp [closeTag?, word?])
    | cons c behind => rw [List.nil_append, untilClose?, hclose]
  | cons c text ih =>
    have hfirst := hnone (c :: text) (List.cons_ne_nil c text) (List.suffix_refl _)
    have hlater := ih fun later hne hsuffix =>
      hnone later hne (hsuffix.trans (List.suffix_cons c text))
    rw [List.cons_append] at hfirst
    rw [List.cons_append, untilClose?, hfirst, hlater]
    rfl

/-- Behind its opening tag, an element is read up to the closing one. -/
theorem element?_of_isTag {tag : List Char} (h : IsTag name false tag) (rest : List Char) :
    element? name (tag ++ rest) = untilClose? name rest := by
  obtain @⟨word, attributes, hname, hends, hclean⟩ := h
  have hrest : tagRest? name (word ++ attributes ++ '>' :: rest) = some rest :=
    tagRest?_eq_some_iff.mpr ⟨word, attributes, rfl, hname, hends, hclean⟩
  rw [List.append_assoc] at hrest
  simp [element?, word?_mark_eq_some_iff.mpr rfl, hrest]

end Markup

end ScriptLink
