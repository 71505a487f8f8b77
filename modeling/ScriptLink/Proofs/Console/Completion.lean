import ScriptLink.Console.Completion

/-!
# What is offered for a word

The word before the cursor is the longest run of word characters that ends there. The console looks
for it one byte behind the beginning of the separator in front, which is the right place only if the
separator takes one byte; behind a longer one there is no character boundary, and no answer.

* **`EndsInWord`** — the text before the cursor as what stands in front and the word.
* **`word?_of_narrow`**, **`word?_of_wide`** — the word that is found behind a separator of one byte,
  and that none is found behind a longer one.
* **`map_fst_offers`**, **`append_of_mem_offers`** — the words that are offered for a start, and that
  each is the start and the addition that is offered with it.
* **`completion_of_last_word`** — when there is an answer, and what it is.
-/

namespace ScriptLink.Console

variable {before front earlier word rest : List Char} {c : Char} {start : String}

/-! ## The last word -/

/-- The characters end in the word: it consists of characters that can stand in a word, and the one
in front of it, if there is one, cannot. -/
structure EndsInWord (before front word : List Char) : Prop where
  split : before = front ++ word
  inWord : ∀ c ∈ word, isInWord c = true
  stops : ∀ c, front.getLast? = some c → isInWord c = false

/-- Nothing stands in front, or a character of one byte is the last. -/
def IsNarrow (front : List Char) : Prop := ∀ c, front.getLast? = some c → c.utf8Size = 1

theorem exists_endsInWord (before : List Char) : ∃ front word, EndsInWord before front word := by
  refine ⟨(before.reverse.dropWhile isInWord).reverse, (before.reverse.takeWhile isInWord).reverse,
    ?_, fun c hc => ?_, fun c hc => ?_⟩
  · rw [← List.reverse_append, List.takeWhile_append_dropWhile, List.reverse_reverse]
  · exact List.all_eq_true.mp List.all_takeWhile c (List.mem_reverse.mp hc)
  · rw [List.getLast?_reverse] at hc
    have hhead := List.head?_dropWhile_not isInWord before.reverse
    rw [hc] at hhead
    simpa using hhead

theorem wordStart_of_front_nil (h : EndsInWord before [] word) : wordStart before = 0 := by
  have hdrop : before.reverse.dropWhile isInWord = [] := by
    rw [h.split, List.nil_append, ← List.append_nil word.reverse,
      List.dropWhile_append_of_pos fun c hc => h.inWord c (List.mem_reverse.mp hc)]
    rfl
  unfold wordStart
  rw [hdrop]

/-- The word is taken to start one byte behind the beginning of the separator. -/
theorem wordStart_of_front_concat (h : EndsInWord before (earlier ++ [c]) word) :
    wordStart before = byteLength earlier + 1 := by
  have hstops : isInWord c = false := h.stops c List.getLast?_concat
  have hdrop : before.reverse.dropWhile isInWord = c :: earlier.reverse := by
    rw [h.split, List.reverse_append, List.dropWhile_append_of_pos fun c hc =>
      h.inWord c (List.mem_reverse.mp hc), List.reverse_concat,
      List.dropWhile_cons_of_neg (by simp [hstops])]
  unfold wordStart
  rw [hdrop]
  simp only [List.reverse_reverse]

/-- One byte behind the beginning of a longer character is the boundary of none. -/
theorem byteLength_ne_inside {first second : List Char} (hwide : 1 < c.utf8Size)
    (h : first ++ second = earlier ++ c :: rest) : byteLength first ≠ byteLength earlier + 1 := by
  intro hlength
  -- a boundary stands in front of the character, or behind all of its bytes
  rcases List.append_eq_append_iff.mp h with ⟨between, rfl, -⟩ | ⟨between, rfl, hrest⟩
  · rw [byteLength_append] at hlength
    omega
  · rw [byteLength_append] at hlength
    cases between with
    | nil =>
      rw [byteLength_nil] at hlength
      omega
    | cons other between =>
      obtain ⟨rfl, -⟩ := List.cons.inj hrest
      rw [byteLength_cons] at hlength
      omega

theorem slice?_before (text after : String) :
    slice? (text ++ after) 0 text.utf8ByteSize = some text :=
  slice?_eq_some_iff.mpr ⟨"", after, by simp, by simp, by simp⟩

section

variable {text after : String} (h : EndsInWord text.toList front word)

include h

theorem eq_append_of_endsInWord : text = String.ofList front ++ String.ofList word := by
  rw [← String.ofList_append, ← h.split, String.ofList_toList]

theorem word?_of_narrow (hnarrow : IsNarrow front) :
    word? (text ++ after) text.utf8ByteSize = some (String.ofList word) := by
  have hstart : wordStart text.toList = byteLength front := by
    rcases List.eq_nil_or_concat front with rfl | ⟨earlier, c, rfl⟩
    · exact wordStart_of_front_nil h
    · rw [List.concat_eq_append] at h hnarrow ⊢
      rw [wordStart_of_front_concat h, byteLength_append, byteLength_cons,
        hnarrow c List.getLast?_concat, byteLength_nil]
  unfold word?
  rw [slice?_before, Option.bind_eq_bind, Option.bind_some, hstart]
  refine slice?_eq_some_iff.mpr ⟨String.ofList front, after, ?_, ?_, ?_⟩
  · rw [← eq_append_of_endsInWord h]
  · rw [utf8ByteSize_ofList]
  · rw [← String.utf8ByteSize_append, ← eq_append_of_endsInWord h]

theorem word?_of_wide (hwide : ¬ IsNarrow front) :
    word? (text ++ after) text.utf8ByteSize = none := by
  rcases List.eq_nil_or_concat front with rfl | ⟨earlier, c, rfl⟩
  · exact absurd (fun _ hc => absurd hc (by simp)) hwide
  · rw [List.concat_eq_append] at h hwide
    have hsize : 1 < c.utf8Size := by
      have hpos := c.utf8Size_pos
      refine Nat.lt_of_le_of_ne hpos fun hone => hwide fun other hother => ?_
      rw [List.getLast?_concat] at hother
      rw [← Option.some.inj hother, hone]
    unfold word?
    rw [slice?_before, Option.bind_eq_bind, Option.bind_some, wordStart_of_front_concat h]
    -- what could be cut out there would begin inside of the separator
    refine Option.eq_none_iff_forall_ne_some.mpr fun part hpart => ?_
    obtain ⟨first, last, hline, hstart, -⟩ := slice?_eq_some_iff.mp hpart
    have hchars : first.toList ++ (part ++ last).toList =
        earlier ++ c :: (word ++ after.toList) := by
      have hlist := congrArg String.toList hline
      rw [String.toList_append, h.split] at hlist
      simpa [String.append_assoc] using hlist.symm
    rw [← byteLength_toList] at hstart
    exact byteLength_ne_inside hsize hchars hstart.symm

end

/-! ## What is offered -/

/-- The known words that the start begins, each with what has to be added for it. -/
def offers (start : String) (known : List String) : List (String × String) :=
  known.filterMap fun word => (completion? start word).map (word, ·)

theorem completion?_eq_some {word addition : String} (h : completion? start word = some addition) :
    start ++ addition = word := by
  unfold completion? at h
  split at h
  · next hbegins =>
    obtain ⟨rest, hrest⟩ := List.isPrefixOf_iff_prefix.mp hbegins
    obtain rfl := Option.some.inj h
    rw [← String.toList_inj, String.toList_append, String.toList_ofList, ← hrest,
      ← String.length_toList, List.drop_left]
  · exact absurd h (by simp)

theorem isSome_completion? (start word : String) :
    (completion? start word).isSome = start.toList.isPrefixOf word.toList := by
  unfold completion?
  split
  · next hbegins => rw [hbegins, Option.isSome_some]
  · next hbegins => rw [Option.isSome_none, Bool.eq_false_iff.mpr hbegins]

/-- Exactly the known words that begin with the start are offered, in their order. -/
theorem map_fst_offers (start : String) (known : List String) :
    (offers start known).map Prod.fst =
      known.filter fun word => start.toList.isPrefixOf word.toList := by
  induction known with
  | nil => rfl
  | cons word rest ih =>
    unfold offers at ih ⊢
    rw [List.filter_cons, ← isSome_completion?]
    cases hcompletion : completion? start word with
    | none =>
      rw [List.filterMap_cons_none (by rw [hcompletion]; rfl), ih]
      rfl
    | some addition =>
      rw [List.filterMap_cons_some (by rw [hcompletion]; rfl), List.map_cons, ih]
      rfl

theorem append_of_mem_offers {known : List String} {candidate : String × String}
    (h : candidate ∈ offers start known) : start ++ candidate.2 = candidate.1 := by
  obtain ⟨word, -, hcandidate⟩ := List.mem_filterMap.mp h
  obtain ⟨addition, haddition, rfl⟩ := Option.map_eq_some_iff.mp hcandidate
  exact completion?_eq_some haddition

/-- The additions alone are those that are offered with their words. -/
theorem map_snd_offers (start : String) (known : List String) :
    (offers start known).map Prod.snd = known.filterMap (completion? start) := by
  unfold offers
  rw [List.map_filterMap]
  refine congrArg (List.filterMap · known) (funext fun word => ?_)
  rw [Option.map_map]
  exact Option.map_id'

theorem complete?_of_word {line : String} {position : Nat} (h : word? line position = some start) :
    complete? line position = some (if start = "" then [] else offers start words) := by
  unfold complete?
  rw [h]
  rfl

/-- At the end of a line the hint is the first addition that is not empty. -/
theorem hint?_of_word {line : String} (h : word? line line.utf8ByteSize = some start) :
    hint? line line.utf8ByteSize = some (if start.utf8ByteSize < 2 then none else
      ((offers start words).find? fun candidate => candidate.2 != "").map fun candidate =>
        paint [.dimmed] candidate.2) := by
  unfold hint?
  rw [h, if_neg (Nat.lt_irrefl _), Option.map_some, ← map_snd_offers, List.find?_map,
    Option.map_map]
  rfl

/-- Where no word is found, there is no answer to either question. -/
theorem complete?_of_none {line : String} {position : Nat} (h : word? line position = none) :
    complete? line position = none := by
  unfold complete?
  rw [h]
  rfl

theorem hint?_of_none {line : String} (h : word? line line.utf8ByteSize = none) :
    hint? line line.utf8ByteSize = none := by
  unfold hint?
  rw [h, if_neg (Nat.lt_irrefl _)]
  rfl

theorem hint?_of_lt {line : String} {position : Nat} (h : position < line.utf8ByteSize) :
    hint? line position = some none := if_pos h

/-! ## The law -/

/-- **What is offered at a position of a line.** Whatever stands before and after the position, the
text before ends in a word. There is an answer exactly if the character in front of the word, if
there is one, takes one byte. Then the words offered are the known ones that begin with the word,
unless it is empty, in their order; and each is the word and the addition that is offered with it.
A hint is given at the end of a line only, for a word of at least two bytes: the first addition
that is not empty. -/
theorem completion_of_last_word (text after : String) :
    let line := text ++ after
    let position := text.utf8ByteSize
    ∃ front word, EndsInWord text.toList front word ∧
      ((complete? line position).isSome = true ↔ IsNarrow front) ∧
      (∀ offered, complete? line position = some offered →
        offered.map Prod.fst = (if word = [] then [] else
          words.filter fun known => word.isPrefixOf known.toList) ∧
        ∀ candidate ∈ offered, String.ofList word ++ candidate.2 = candidate.1) ∧
      (after ≠ "" → hint? line position = some none) ∧
      (after = "" → ((hint? line position).isSome = true ↔ IsNarrow front) ∧
        ∀ offered, complete? line position = some offered →
          hint? line position = some (if byteLength word < 2 then none else
            (offered.find? fun candidate => candidate.2 != "").map fun candidate =>
              paint [.dimmed] candidate.2)) := by
  intro line position
  obtain ⟨front, word, hends⟩ := exists_endsInWord text.toList
  have hempty : String.ofList word = "" ↔ word = [] := by
    rw [← String.toList_inj, String.toList_ofList]
    rfl
  refine ⟨front, word, hends, ?_⟩
  have hinside : after ≠ "" → hint? line position = some none := by
    intro hafter
    refine hint?_of_lt ?_
    show text.utf8ByteSize < (text ++ after).utf8ByteSize
    have hpos : after.utf8ByteSize ≠ 0 := by
      rw [← byteLength_toList, Ne, byteLength_eq_zero_iff]
      exact fun hnil => hafter (String.toList_inj.mp hnil)
    rw [String.utf8ByteSize_append]
    omega
  have hend (hafter : after = "") : position = line.utf8ByteSize := by
    show text.utf8ByteSize = (text ++ after).utf8ByteSize
    rw [hafter, String.append_empty]
  by_cases hnarrow : IsNarrow front
  · have hword : word? line position = some (String.ofList word) := word?_of_narrow hends hnarrow
    have hcomplete := complete?_of_word hword
    refine ⟨iff_of_true (by rw [hcomplete]; rfl) hnarrow, fun offered h => ?_, hinside,
      fun hafter => ?_⟩
    · obtain rfl := Option.some.inj (hcomplete.symm.trans h)
      split
      · next hnil => exact ⟨by rw [if_pos (hempty.mp hnil)]; rfl, by simp⟩
      · next hword =>
        rw [if_neg fun hnil => hword (hempty.mpr hnil), map_fst_offers, String.toList_ofList]
        exact ⟨rfl, fun candidate hmem => append_of_mem_offers hmem⟩
    · rw [hend hafter] at hword ⊢
      have hhint := hint?_of_word hword
      rw [utf8ByteSize_ofList] at hhint
      refine ⟨iff_of_true (by rw [hhint]; rfl) hnarrow, fun offered h => ?_⟩
      rw [hhint]
      by_cases hshort : byteLength word < 2
      · rw [if_pos hshort, if_pos hshort]
      · -- a word of two bytes is not empty, so what is offered is all there is
        have hnonempty : String.ofList word ≠ "" := by
          rw [Ne, hempty]
          rintro rfl
          exact hshort (by decide)
        rw [complete?_of_word hword, if_neg hnonempty] at h
        obtain rfl := Option.some.inj h
        rfl
  · have hword : word? line position = none := word?_of_wide hends hnarrow
    have hcomplete := complete?_of_none hword
    refine ⟨iff_of_false (by simp [hcomplete]) hnarrow, fun offered h => ?_, hinside,
      fun hafter => ?_⟩
    · exact absurd (hcomplete.symm.trans h) (by simp)
    · rw [hend hafter] at hword ⊢
      refine ⟨iff_of_false (by simp [hint?_of_none hword]) hnarrow, fun offered h => ?_⟩
      exact absurd ((complete?_of_none hword).symm.trans h) (by simp)

/-- Behind a bracket two words are offered, and the hint is what the first of them has more. -/
theorem words_behind_a_bracket :
    let line := "(ex" ++ ""
    let offered := [("export", "port"), ("extends", "tends")]
    complete? line 3 = some offered ∧
      ∃ front word, EndsInWord "(ex".toList front word ∧ IsNarrow front ∧
        (∀ candidate ∈ offered, String.ofList word ++ candidate.2 = candidate.1) ∧
        hint? line 3 = some (if byteLength word < 2 then none else
          (offered.find? fun candidate => candidate.2 != "").map fun candidate =>
            paint [.dimmed] candidate.2) := by
  intro line offered
  have hcomplete : complete? line 3 = some offered := by decide +kernel
  obtain ⟨front, word, hends, hanswer, hoffers, -, hhint⟩ := completion_of_last_word "(ex" ""
  refine ⟨hcomplete, front, word, hends, ?_, (hoffers offered hcomplete).2,
    (hhint rfl).2 offered hcomplete⟩
  exact hanswer.mp (Option.isSome_iff_exists.mpr ⟨offered, hcomplete⟩)

/-- **Behind a separator of several bytes there is no answer**, at the end of a line that ends in a
word of two bytes: the word is looked for inside of the separator. -/
theorem no_answer_behind_an_arrow :
    let line := "\u2192ex"
    EndsInWord line.toList ['\u2192'] ['e', 'x'] ∧ line.utf8ByteSize = 5 ∧
      complete? line 5 = none ∧ hint? line 5 = none := by
  intro line
  refine ⟨⟨by decide +kernel, by decide +kernel, fun c hc => ?_⟩, by decide +kernel,
    by decide +kernel, by decide +kernel⟩
  obtain rfl := Option.some.inj hc
  decide +kernel

end ScriptLink.Console
