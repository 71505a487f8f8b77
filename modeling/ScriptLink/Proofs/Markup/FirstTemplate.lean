import ScriptLink.Component
import ScriptLink.Proofs.Markup.Tag

/-!
# The first template

The first template of a markup text is found by one loop over the template tags, with a counter and
the place where the text began. What comes out is the text between an opening tag and its partner:
the tags in between are balanced, and no opening tag stands before. Any other text has no template.

* **`ClosesFrom depth`** — kinds of tags that close what is open at `depth`, and never more.
  **`Balanced`** — the kinds between a tag and its partner.
* **`templateSpan?_open_iff`** — what the loop answers once a template is open.
* **`templateSpan?_iff`** — what it answers for all tags.
* **`templateSpan?_count`** — the counter is the number of open tags, so it is never below zero.
* **`first_template_is_balanced`** — the law for any markup.
-/

namespace ScriptLink.Component

open Markup

variable {depth start stop : Nat} {kind : Bool} {kinds : List Bool}
  {tags : List (Occurrence Bool)}

/-! ## Balanced kinds

A kind is whether the tag closes. -/

/-- No more tags close than are open, `depth` of them from before, and in the end all are closed. -/
structure ClosesFrom (depth : Nat) (kinds : List Bool) : Prop where
  prefixes : ∀ front, front <+: kinds → front.count true ≤ front.count false + depth
  totals : kinds.count true = kinds.count false + depth

/-- No prefix has more closing than opening tags, and the totals are equal. -/
def Balanced (kinds : List Bool) : Prop :=
  (∀ front, front <+: kinds → front.count true ≤ front.count false) ∧
    kinds.count true = kinds.count false

theorem closesFrom_zero : ClosesFrom 0 kinds ↔ Balanced kinds :=
  ⟨fun h => ⟨h.prefixes, h.totals⟩, fun h => ⟨h.1, h.2⟩⟩

theorem closesFrom_nil : ClosesFrom depth [] ↔ depth = 0 := by
  refine ⟨fun h => by simpa using h.totals.symm, ?_⟩
  rintro rfl
  exact ⟨fun front hfront => by simp [List.prefix_nil.mp hfront], rfl⟩

/-- A property of all prefixes is one of the empty one and one of those that begin alike. -/
theorem forall_prefix_cons {holds : List Bool → Prop} :
    (∀ front, front <+: kind :: kinds → holds front) ↔
      holds [] ∧ ∀ front, front <+: kinds → holds (kind :: front) := by
  constructor
  · exact fun h => ⟨h [] List.nil_prefix, fun front hfront =>
      h _ (List.cons_prefix_cons.mpr ⟨rfl, hfront⟩)⟩
  · rintro ⟨hnil, hcons⟩ front hfront
    rcases List.prefix_cons_iff.mp hfront with rfl | ⟨rest, rfl, hrest⟩
    · exact hnil
    · exact hcons rest hrest

theorem closesFrom_open : ClosesFrom depth (false :: kinds) ↔ ClosesFrom (depth + 1) kinds := by
  constructor
  · rintro ⟨hprefixes, htotals⟩
    refine ⟨fun front hfront => ?_, ?_⟩
    · have hlong := (forall_prefix_cons.mp hprefixes).2 front hfront
      simp at hlong
      omega
    · simp at htotals
      omega
  · rintro ⟨hprefixes, htotals⟩
    refine ⟨forall_prefix_cons.mpr ⟨by simp, fun front hfront => ?_⟩, ?_⟩
    · have hshort := hprefixes front hfront
      simp
      omega
    · simp
      omega

theorem closesFrom_close :
    ClosesFrom (depth + 1) (true :: kinds) ↔ ClosesFrom depth kinds := by
  constructor
  · rintro ⟨hprefixes, htotals⟩
    refine ⟨fun front hfront => ?_, ?_⟩
    · have hlong := (forall_prefix_cons.mp hprefixes).2 front hfront
      simp at hlong
      omega
    · simp at htotals
      omega
  · rintro ⟨hprefixes, htotals⟩
    refine ⟨forall_prefix_cons.mpr ⟨by simp, fun front hfront => ?_⟩, ?_⟩
    · have hshort := hprefixes front hfront
      simp
      omega
    · simp
      omega

theorem not_closesFrom_zero_close : ¬ ClosesFrom 0 (true :: kinds) := by
  intro h
  have hone := h.prefixes [true] (by simp)
  exact absurd hone (by decide)

/-- What closes itself may stand in front. -/
theorem ClosesFrom.append {others : List Bool} (h : ClosesFrom 0 kinds)
    (hothers : ClosesFrom depth others) : ClosesFrom depth (kinds ++ others) := by
  have htotals := h.totals
  refine ⟨?_, ?_⟩
  · rintro front ⟨more, hmore⟩
    rcases List.append_eq_append_iff.mp hmore with ⟨rest, rfl, -⟩ | ⟨later, rfl, rfl⟩
    · have hshort := h.prefixes front (List.prefix_append front rest)
      omega
    · have hbehind := hothers.prefixes later (List.prefix_append later more)
      rw [List.count_append, List.count_append]
      omega
  · have hall := hothers.totals
    rw [List.count_append, List.count_append]
    omega

theorem balanced_nil : Balanced [] := closesFrom_zero.mp (closesFrom_nil.mpr rfl)

/-- Balanced kinds between a tag and its partner, and balanced kinds behind, are balanced. -/
theorem Balanced.wrap {others : List Bool} (h : Balanced kinds) (hothers : Balanced others) :
    Balanced (false :: (kinds ++ true :: others)) := by
  rw [← closesFrom_zero] at *
  exact closesFrom_open.mpr (h.append (closesFrom_close.mpr hothers))

/-! ## The loop -/

section Steps

variable {tag : Occurrence Bool} {rest : List (Occurrence Bool)}

/-- A closing tag is passed over where nothing is open. -/
theorem templateSpan?_stray (h : tag.value = true) :
    templateSpan? 0 start (tag :: rest) = templateSpan? 0 start rest := by
  rw [templateSpan?, if_pos h, if_neg Nat.zero_ne_one, Nat.zero_sub]

theorem templateSpan?_first (h : tag.value = false) :
    templateSpan? 0 start (tag :: rest) = templateSpan? 1 tag.stop rest := by
  rw [templateSpan?, h, if_neg Bool.false_ne_true, if_pos rfl]

theorem templateSpan?_open (h : tag.value = false) :
    templateSpan? (depth + 1) start (tag :: rest) = templateSpan? (depth + 2) start rest := by
  rw [templateSpan?, h, if_neg Bool.false_ne_true, if_neg (Nat.succ_ne_zero depth)]

theorem templateSpan?_close (h : tag.value = true) :
    templateSpan? (depth + 2) start (tag :: rest) = templateSpan? (depth + 1) start rest := by
  rw [templateSpan?, if_pos h, if_neg (by omega)]
  rfl

theorem templateSpan?_last (h : tag.value = true) :
    templateSpan? 1 start (tag :: rest) = some (start, tag.start) := by
  rw [templateSpan?, if_pos h, if_pos rfl]

end Steps

/-- **What the loop answers once a template is open**: the start is the one that it was given, and
the end is the place of the closing tag in front of which everything is closed but that template. -/
theorem templateSpan?_open_iff {first : Nat} :
    templateSpan? (depth + 1) start tags = some (first, stop) ↔
      ∃ between closing after, tags = between ++ closing :: after ∧ closing.value = true ∧
        ClosesFrom depth (between.map (·.value)) ∧ first = start ∧ stop = closing.start := by
  induction tags generalizing depth with
  | nil => simp [templateSpan?]
  | cons tag rest ih =>
    -- the closing tag is this one, or it comes later
    have hsplit : (∃ between closing after, tag :: rest = between ++ closing :: after ∧
        closing.value = true ∧ ClosesFrom depth (between.map (·.value)) ∧ first = start ∧
        stop = closing.start) ↔
        (tag.value = true ∧ depth = 0 ∧ first = start ∧ stop = tag.start) ∨
        ∃ between closing after, rest = between ++ closing :: after ∧ closing.value = true ∧
          ClosesFrom depth (tag.value :: between.map (·.value)) ∧ first = start ∧
          stop = closing.start := by
      constructor
      · rintro ⟨_ | ⟨other, between⟩, closing, after, htags, hcloses, hbetween, hspan⟩
        · obtain ⟨rfl, rfl⟩ := List.cons.inj htags
          exact Or.inl ⟨hcloses, closesFrom_nil.mp hbetween, hspan⟩
        · obtain ⟨rfl, rfl⟩ := List.cons.inj htags
          exact Or.inr ⟨between, closing, after, rfl, hcloses, hbetween, hspan⟩
      · rintro (⟨hcloses, rfl, hspan⟩ | ⟨between, closing, after, rfl, hcloses, hbetween, hspan⟩)
        · exact ⟨[], tag, rest, rfl, hcloses, closesFrom_nil.mpr rfl, hspan⟩
        · exact ⟨tag :: between, closing, after, rfl, hcloses, hbetween, hspan⟩
    rw [hsplit]
    cases htag : tag.value with
    | false =>
      rw [templateSpan?_open htag, ih]
      simp [closesFrom_open]
    | true =>
      cases depth with
      | zero =>
        rw [templateSpan?_last htag, Option.some.injEq, Prod.mk.injEq, @eq_comm _ start,
          @eq_comm _ tag.start]
        simp [not_closesFrom_zero_close]
      | succ depth =>
        rw [templateSpan?_close htag, ih]
        simp [closesFrom_close]

/-- **What the loop answers for all tags**: where the first opening tag ends and where its partner
begins. -/
theorem templateSpan?_iff {first : Nat} :
    templateSpan? 0 start tags = some (first, stop) ↔
      ∃ before opening between closing after,
        tags = before ++ opening :: (between ++ closing :: after) ∧
        (∀ tag ∈ before, tag.value = true) ∧ opening.value = false ∧ closing.value = true ∧
        Balanced (between.map (·.value)) ∧ first = opening.stop ∧ stop = closing.start := by
  induction tags with
  | nil => simp [templateSpan?]
  | cons tag rest ih =>
    cases htag : tag.value with
    | true =>
      rw [templateSpan?_stray htag, ih]
      constructor
      · rintro ⟨before, opening, between, closing, after, rfl, hbefore, hspan⟩
        exact ⟨tag :: before, opening, between, closing, after, rfl,
          List.forall_mem_cons.mpr ⟨htag, hbefore⟩, hspan⟩
      · rintro ⟨_ | ⟨_, before⟩, opening, between, closing, after, htags, hbefore, hopens, hspan⟩
        · obtain ⟨rfl, rfl⟩ := List.cons.inj htags
          exact absurd (htag.symm.trans hopens) (by simp)
        · obtain ⟨rfl, rfl⟩ := List.cons.inj htags
          exact ⟨before, opening, between, closing, after, rfl,
            (List.forall_mem_cons.mp hbefore).2, hopens, hspan⟩
    | false =>
      rw [templateSpan?_first htag, ← Nat.zero_add 1, templateSpan?_open_iff]
      simp only [closesFrom_zero]
      constructor
      · rintro ⟨between, closing, after, rfl, hspan⟩
        exact ⟨[], tag, between, closing, after, rfl, by simp, htag, hspan⟩
      · rintro ⟨_ | ⟨_, before⟩, opening, between, closing, after, htags, hbefore, -, hspan⟩
        · obtain ⟨rfl, rfl⟩ := List.cons.inj htags
          exact ⟨between, closing, after, rfl, hspan⟩
        · obtain ⟨rfl, rfl⟩ := List.cons.inj htags
          exact absurd (htag.symm.trans (hbefore tag List.mem_cons_self)) (by simp)

/-- Closing tags in front of the first opening one change nothing. -/
theorem templateSpan?_dropWhile :
    templateSpan? 0 start (tags.dropWhile (·.value)) = templateSpan? 0 start tags := by
  induction tags with
  | nil => rfl
  | cons tag rest ih =>
    rw [List.dropWhile_cons]
    split
    · next htag => rw [ih, templateSpan?_stray htag]
    · rfl

/-- The tags from the first opening one on. -/
def counted (kinds : List Bool) : List Bool := kinds.dropWhile id

/-- Once a template is open, as many are open as have been opened and not been closed. -/
theorem templateSpan?_count_open {front : List (Occurrence Bool)}
    (hfront : templateSpan? (depth + 1) start front = none) :
    ∃ now, now + (front.map (·.value)).count true =
        depth + 1 + (front.map (·.value)).count false ∧
      ∀ rest, templateSpan? (depth + 1) start (front ++ rest) = templateSpan? now start rest := by
  induction front generalizing depth with
  | nil => exact ⟨depth + 1, rfl, fun _ => rfl⟩
  | cons tag front ih =>
    cases htag : tag.value with
    | false =>
      rw [templateSpan?_open htag] at hfront
      obtain ⟨now, hcount, heq⟩ := ih hfront
      refine ⟨now, ?_, fun rest => by rw [List.cons_append, templateSpan?_open htag, heq]⟩
      simp [htag]
      omega
    | true =>
      cases depth with
      | zero =>
        rw [templateSpan?_last htag] at hfront
        exact absurd hfront (by simp)
      | succ depth =>
        rw [templateSpan?_close htag] at hfront
        obtain ⟨now, hcount, heq⟩ := ih hfront
        refine ⟨now, ?_, fun rest => by rw [List.cons_append, templateSpan?_close htag, heq]⟩
        simp [htag]
        omega

/-- **The counter is the number of open tags.** As long as the loop goes on, it stands where its
counter is the difference of the opening and the closing tags, from the first opening one on; so
there never is a closing tag too many. -/
theorem templateSpan?_count {front : List (Occurrence Bool)}
    (hfront : templateSpan? 0 start front = none) :
    ∃ now first : Nat,
      (now : Int) = ((counted (front.map (·.value))).count false : Int) -
        (counted (front.map (·.value))).count true ∧
      ∀ rest, templateSpan? 0 start (front ++ rest) = templateSpan? now first rest := by
  induction front with
  | nil => exact ⟨0, start, rfl, fun _ => rfl⟩
  | cons tag front ih =>
    cases htag : tag.value with
    | true =>
      rw [templateSpan?_stray htag] at hfront
      obtain ⟨now, first, hcount, heq⟩ := ih hfront
      refine ⟨now, first, ?_, fun rest => by rw [List.cons_append, templateSpan?_stray htag, heq]⟩
      simpa [counted, htag] using hcount
    | false =>
      rw [templateSpan?_first htag, ← Nat.zero_add 1] at hfront
      obtain ⟨now, hcount, heq⟩ := templateSpan?_count_open hfront
      refine ⟨now, tag.stop, ?_, fun rest => by
        rw [List.cons_append, templateSpan?_first htag, ← heq]⟩
      simp [counted, htag]
      omega

/-! ## The text -/

/-- The loop only compares places with each other. -/
theorem templateSpan?_shift (offset : Nat) :
    templateSpan? depth (start + offset) (tags.map (·.shift offset)) =
      (templateSpan? depth start tags).map fun span => (span.1 + offset, span.2 + offset) := by
  induction tags generalizing depth start with
  | nil => rfl
  | cons tag rest ih =>
    simp only [List.map_cons, templateSpan?, Occurrence.shift]
    split
    · split
      · rfl
      · exact ih
    · split
      · exact ih
      · exact ih

/-- Where nothing is open, the start is not looked at. -/
theorem templateSpan?_zero (other : Nat) :
    templateSpan? 0 start tags = templateSpan? 0 other tags := by
  induction tags with
  | nil => rfl
  | cons tag rest ih =>
    cases htag : tag.value with
    | true => rw [templateSpan?_stray htag, templateSpan?_stray htag, ih]
    | false => rw [templateSpan?_first htag, templateSpan?_first htag]

/-- **A text in front without an opening tag changes nothing.** -/
theorem firstTemplate?_append {front back : List Char}
    (hfront : Shows (Markup.tag? "template") front back kinds)
    (hkinds : ∀ kind ∈ kinds, kind = true) :
    firstTemplate? (front ++ back) = firstTemplate? back := by
  obtain ⟨found, rfl, heq⟩ := hfront 0
  have hstray : ∀ rest, templateSpan? 0 0 (found ++ rest) = templateSpan? 0 0 rest := by
    intro rest
    rw [← templateSpan?_dropWhile, List.dropWhile_append_of_pos, templateSpan?_dropWhile]
    exact fun tag hmem => hkinds _ (List.mem_map_of_mem hmem)
  unfold firstTemplate? occurrences
  rw [heq, hstray, occurrencesFrom_shift, templateSpan?_zero (0 + front.length),
    templateSpan?_shift, Option.map_map]
  congr 1
  funext span
  obtain ⟨first, stop⟩ := span
  show ((front ++ back).drop (first + front.length)).take (_ - _) = _
  rw [Nat.add_sub_add_right, Nat.add_comm first, List.drop_append, Nat.add_sub_cancel_left,
    List.drop_of_length_le (Nat.le_add_right _ _), List.nil_append]

theorem head?_template : "template".toList.head? = some 't' := by decide

/-- The tags of a template are found where they are. -/
theorem templateTag?_eq_some_iff {text rest : List Char} :
    Markup.tag? "template" text = some (kind, rest) ↔
      ∃ tag, text = tag ++ rest ∧ IsTag "template" kind tag :=
  tag?_eq_some_iff head?_template (by decide)

/-- The template tags of a markup. -/
def templateTags (markup : List Char) : List (Occurrence Bool) :=
  occurrences (Markup.tag? "template") markup

/-- They are the finds in the markup, and nothing else is. -/
theorem finds_iff_templateTags {markup : List Char} {tags : List (Occurrence Bool)} :
    Finds (Markup.tag? "template") 0 markup tags ↔ tags = templateTags markup :=
  finds_iff (consumes_tag? head?_template (by decide))

/-- What the first template is, by the tags of the markup. -/
theorem firstTemplate?_eq_some_iff {markup inner : List Char} :
    firstTemplate? markup = some inner ↔
      ∃ before opening between closing after,
        templateTags markup = before ++ opening :: (between ++ closing :: after) ∧
        (∀ tag ∈ before, tag.value = true) ∧ opening.value = false ∧ closing.value = true ∧
        Balanced (between.map (·.value)) ∧
        ∃ head tail, markup = head ++ inner ++ tail ∧ head.length = opening.stop ∧
          (head ++ inner).length = closing.start := by
  constructor
  · intro h
    obtain ⟨⟨first, stop⟩, hspan, rfl⟩ := Option.map_eq_some_iff.mp h
    rw [← templateTags] at hspan
    obtain ⟨before, opening, between, closing, after, htags, hbefore, hopens, hcloses, hbalanced,
      rfl, rfl⟩ := templateSpan?_iff.mp hspan
    have hfinds := finds_iff_templateTags.mpr (Eq.refl (templateTags markup))
    have hordered := hfinds.ordered
    rw [htags, List.pairwise_append, List.pairwise_cons] at hordered
    have hle : opening.stop ≤ closing.start := hordered.2.1.1 closing (by simp)
    have hwithin := hfinds.within closing (by rw [htags]; simp)
    refine ⟨before, opening, between, closing, after, htags, hbefore, hopens, hcloses, hbalanced,
      markup.take opening.stop, markup.drop closing.start, ?_, ?_, ?_⟩
    · rw [← List.take_add, Nat.add_sub_cancel' hle, List.take_append_drop]
    · rw [List.length_take]
      omega
    · rw [← List.take_add, Nat.add_sub_cancel' hle, List.length_take]
      omega
  · rintro ⟨before, opening, between, closing, after, htags, hbefore, hopens, hcloses, hbalanced,
      head, tail, rfl, hstart, hstop⟩
    refine Option.map_eq_some_iff.mpr ⟨(opening.stop, closing.start), ?_, ?_⟩
    · exact templateSpan?_iff.mpr ⟨before, opening, between, closing, after, htags, hbefore, hopens,
        hcloses, hbalanced, rfl, rfl⟩
    · rw [← hstart, ← hstop]
      simp

/-- **The text between an opening tag and its partner** is the first template of what begins with
the opening tag. -/
theorem firstTemplate?_of_balanced {opening inner closing back : List Char}
    (hopening : IsTag "template" false opening)
    (hinner : Shows (Markup.tag? "template") inner (closing ++ back) kinds)
    (hkinds : Balanced kinds) (hclosing : IsTag "template" true closing) :
    firstTemplate? (opening ++ (inner ++ (closing ++ back))) = some inner := by
  obtain ⟨found, rfl, heq⟩ := hinner (0 + opening.length)
  obtain ⟨stop, after, htags⟩ : ∃ stop after,
      occurrences (Markup.tag? "template") (opening ++ (inner ++ (closing ++ back))) =
        [] ++ ⟨0, 0 + opening.length, false⟩ ::
          (found ++ ⟨0 + opening.length + inner.length, stop, true⟩ :: after) := by
    rw [occurrences, occurrencesFrom_find 0 hopening.ne_nil
      (templateTag?_eq_some_iff.mpr ⟨opening, rfl, hopening⟩), heq,
      occurrencesFrom_find _ hclosing.ne_nil
        (templateTag?_eq_some_iff.mpr ⟨closing, rfl, hclosing⟩)]
    exact ⟨_, _, rfl⟩
  have hspan : templateSpan? 0 0 _ = some (0 + opening.length, 0 + opening.length + inner.length) :=
    templateSpan?_iff.mpr ⟨_, _, _, _, _, htags, by simp, rfl, rfl, hkinds, rfl, rfl⟩
  rw [firstTemplate?, hspan, Nat.zero_add]
  simp

/-! ## The law -/

/-- **The first template is the balanced one.** The template tags of a markup are the leftmost finds,
without overlaps, of what `IsTag` describes. The first template is the text between an opening tag
that no other one precedes and a later closing tag, if the tags between the two are balanced, and
there is none otherwise. Closing tags in front of the first opening one change nothing, neither do
texts that hold only such tags. The counter of the loop is the number of open tags, counted from the
first opening one on, and never falls below zero. -/
theorem first_template_is_balanced (markup : List Char) :
    (∀ tags, Finds (Markup.tag? "template") 0 markup tags ↔ tags = templateTags markup) ∧
    (∀ text closes rest, Markup.tag? "template" text = some (closes, rest) ↔
      ∃ tag, text = tag ++ rest ∧ IsTag "template" closes tag) ∧
    (∀ inner, firstTemplate? markup = some inner ↔
      ∃ before opening between closing after,
        templateTags markup = before ++ opening :: (between ++ closing :: after) ∧
        (∀ tag ∈ before, tag.value = true) ∧ opening.value = false ∧ closing.value = true ∧
        Balanced (between.map (·.value)) ∧
        ∃ head tail, markup = head ++ inner ++ tail ∧ head.length = opening.stop ∧
          (head ++ inner).length = closing.start) ∧
    templateSpan? 0 0 ((templateTags markup).dropWhile (·.value)) =
      templateSpan? 0 0 (templateTags markup) ∧
    (∀ front back kinds, markup = front ++ back →
      Shows (Markup.tag? "template") front back kinds → (∀ kind ∈ kinds, kind = true) →
      firstTemplate? markup = firstTemplate? back) ∧
    ∀ front rest, templateTags markup = front ++ rest → templateSpan? 0 0 front = none →
      ∃ count first : Nat,
        (count : Int) = ((counted (front.map (·.value))).count false : Int) -
          (counted (front.map (·.value))).count true ∧
        ∀ later, templateSpan? 0 0 (front ++ later) = templateSpan? count first later := by
  refine ⟨fun tags => finds_iff_templateTags, fun text closes rest => templateTag?_eq_some_iff,
    fun inner => firstTemplate?_eq_some_iff, templateSpan?_dropWhile, ?_,
    fun front _ _ hfront => templateSpan?_count hfront⟩
  rintro front back kinds rfl hfront hkinds
  exact firstTemplate?_append hfront hkinds

/-- A stray closing tag in front, and a template in the template. -/
example : firstTemplate? "</template><template>a<template>b</template></template>".toList =
    some "a<template>b</template>".toList := by decide +kernel

end ScriptLink.Component
