import ScriptLink.Proofs.Act
import ScriptLink.Proofs.Walk

/-!
# Which tokens the classification promotes

The guards of the classification follow the links of one token. Where the links are exact they ask
for the nearest tokens on both sides, so a promotion is a matter of the place alone; and as visits
do not disturb each other, it does not matter in which order the tokens are visited.

* **`TokenStream.IsReservedUse`**, **`TokenStream.IsArrow`** — the tokens that become keywords, by
  what stands around them. `isPromoted_iff`: the guards find exactly these.
* **`TokenStream.foldl_classifyAt_eq_classify`** — visits to all tokens, in any order and however
  often, come to the classification. A second run is such a list of visits.
* **`TokenStream.classification_is_local`** — all of this, for streams built from any marks.
-/

namespace ScriptLink.TokenStream

variable {stream : TokenStream} {id : Nat} {texts : List String}

/-! ## What stands around a token -/

/-- The nearest token before this one that is no trivia reads one of the texts. -/
def IsBehind (stream : TokenStream) (id : Nat) (texts : List String) : Prop :=
  ∃ before, stream.IsPrev id before ∧ stream.lexeme before ∈ texts

/-- The nearest token behind this one that is no trivia reads one of the texts. -/
def IsBefore (stream : TokenStream) (id : Nat) (texts : List String) : Prop :=
  ∃ after, stream.IsNext id after ∧ stream.lexeme after ∈ texts

/-- The token is the arrow of a function. -/
structure IsArrow (stream : TokenStream) (id : Nat) : Prop where
  kind : stream.kind? id = some .operator
  reads : stream.lexeme id = "=>"

/-- The token is a reserved word that is not the name of a property: no dot before it, and not
the key of an entry, which stands between the beginning of the entry and a colon. -/
structure IsReservedUse (stream : TokenStream) (id : Nat) : Prop where
  kind : stream.kind? id = some .identifier
  reads : isReserved (stream.lexeme id) = true
  notMember : ¬ stream.IsBehind id [".", "?."]
  notKey : ¬ (stream.IsBefore id [":"] ∧ stream.IsBehind id ["\x7b", ","])

theorem reads_iff_exists {link : Option Nat} {text : String} :
    stream.reads link text = true ↔ ∃ found, link = some found ∧ stream.lexeme found = text := by
  unfold reads
  rw [Option.any_eq_true]
  simp only [beq_iff_eq]

theorem isMember_iff (hback : stream.BackLinked) (hid : id < stream.size) :
    stream.isMember id = true ↔ stream.IsBehind id [".", "?."] := by
  unfold isMember IsBehind
  simp only [Bool.or_eq_true, reads_iff_exists, hback id _ hid, ← exists_or, ← and_or_left,
    List.mem_cons, List.not_mem_nil, or_false]

theorem isKey_iff (hlinked : stream.Linked) (hback : stream.BackLinked) (hid : id < stream.size) :
    stream.isKey id = true ↔ stream.IsBefore id [":"] ∧ stream.IsBehind id ["\x7b", ","] := by
  unfold isKey IsBehind IsBefore
  simp only [Bool.and_eq_true, Bool.or_eq_true, reads_iff_exists, hback id _ hid, hlinked id _ hid,
    ← exists_or, ← and_or_left, List.mem_cons, List.not_mem_nil, or_false]

/-- **What the guards decide**: where the links are exact, a token is promoted for what it reads and
what stands around it. -/
theorem isPromoted_iff (hlinked : stream.Linked) (hback : stream.BackLinked) :
    stream.isPromoted id = true ↔ stream.IsArrow id ∨ stream.IsReservedUse id := by
  constructor
  · intro h
    have hid := size_of_isPromoted h
    unfold isPromoted at h
    split at h
    · next hkind => exact .inl ⟨hkind, eq_of_beq h⟩
    · next hkind =>
      simp only [Bool.and_eq_true, Bool.not_eq_true'] at h
      obtain ⟨⟨hreads, hmember⟩, hkey⟩ := h
      rw [← Bool.not_eq_true, isMember_iff hback hid] at hmember
      rw [← Bool.not_eq_true, isKey_iff hlinked hback hid] at hkey
      exact .inr ⟨hkind, hreads, hmember, hkey⟩
    · exact absurd h (by simp)
  · rintro (⟨hkind, hreads⟩ | ⟨hkind, hreads, hmember, hkey⟩)
    · unfold isPromoted
      rw [hkind, hreads]
      rfl
    · have hid : id < stream.size := lt_size_of_kind? hkind
      rw [← isMember_iff hback hid, Bool.not_eq_true] at hmember
      rw [← isKey_iff hlinked hback hid, Bool.not_eq_true] at hkey
      unfold isPromoted
      rw [hkind]
      simp only [hreads, hmember, hkey, Bool.not_false, Bool.and_self]

/-! ## The order of the visits -/

theorem ext_get? {first second : TokenStream} (h : ∀ j, first.get? j = second.get? j) :
    first = second := by
  obtain ⟨tokens⟩ := first
  obtain ⟨others⟩ := second
  exact congrArg TokenStream.mk (Array.ext_getElem? h)

/-- **Any order will do**, as long as every token has its visit. -/
theorem foldl_classifyAt_eq_classify {ids : List Nat} (hall : ∀ id < stream.size, id ∈ ids) :
    ids.foldl classifyAt stream = stream.classify := by
  refine ext_get? fun j => ?_
  rw [get?_foldl_classifyAt, get?_classify]
  -- a token that is promoted stands in the stream, so it has had its visit
  cases hpromoted : stream.isPromoted j with
  | false => rw [Bool.and_false]
  | true => rw [decide_eq_true (hall j (size_of_isPromoted hpromoted)), Bool.true_and]

theorem classify_classify (stream : TokenStream) : stream.classify.classify = stream.classify := by
  -- two runs are one list of visits, with every token in it twice
  have htwice : stream.classify.classify =
      (List.range stream.size ++ List.range stream.size).foldl classifyAt stream := by
    rw [List.foldl_append]
    show (List.range stream.classify.size).foldl classifyAt stream.classify = _
    rw [size_classify]
    rfl
  rw [htwice]
  exact foldl_classifyAt_eq_classify fun id hid =>
    List.mem_append_left _ (List.mem_range.mpr hid)

/-! ## The links -/

theorem backLinked_classify (h : stream.BackLinked) : stream.classify.BackLinked :=
  h.congr (size_classify stream) (prev_classify stream) (isMeaningful_classify stream)

/-- What is written in place of tokens does not matter for the links. -/
theorem Same.exact {other : TokenStream} (h : stream.Same other) (hlinked : other.Linked)
    (hback : other.BackLinked) : stream.Linked ∧ stream.BackLinked := by
  have hmeans (k : Nat) : stream.IsMeaningful k ↔ other.IsMeaningful k := by
    unfold IsMeaningful
    rw [h.kind?]
  exact ⟨hlinked.congr h.size h.next hmeans, hback.congr h.size h.prev hmeans⟩

/-! ## The law -/

/-- **The classification is local, free of order, and done once.** In a stream built from any marks,
whatever is written in place of its tokens, the keywords are those from before, the arrows and the
reserved words that name no property, as the stream stood before; nothing else about a token
changes; visits in another order come to the same; a second run changes nothing; and the links
are exact for the new kinds as well. -/
theorem classification_is_local {source : String} {marks : List Mark}
    (hbuilt : stream.Same (ofMarks source marks)) :
    (∀ id, stream.classify.kind? id = some .keyword ↔
      stream.kind? id = some .keyword ∨ stream.IsArrow id ∨ stream.IsReservedUse id) ∧
    (stream.classify.size = stream.size ∧ ∀ id token, stream.get? id = some token →
      ∃ kind, stream.classify.get? id = some { token with kind := kind } ∧
        (kind = .keyword ∨ kind = token.kind)) ∧
    (∀ ids : List Nat, (∀ id < stream.size, id ∈ ids) →
      ids.foldl classifyAt stream = stream.classify) ∧
    stream.classify.classify = stream.classify ∧
    stream.classify.Linked ∧ stream.classify.BackLinked := by
  obtain ⟨hlinked, hback⟩ :=
    hbuilt.exact (linked_ofMarks source marks) (backLinked_ofMarks source marks)
  refine ⟨fun id => ?_, ⟨size_classify stream, fun id token htoken => ?_⟩,
    fun ids hall => foldl_classifyAt_eq_classify hall, classify_classify stream,
    linked_classify hlinked, backLinked_classify hback⟩
  · rw [kind?_classify, ← isPromoted_iff hlinked hback]
    by_cases hpromoted : stream.isPromoted id = true
    · rw [if_pos hpromoted]
      exact iff_of_true rfl (.inr hpromoted)
    · rw [if_neg hpromoted, or_iff_left hpromoted]
  · rw [get?_classify, htoken]
    cases stream.isPromoted id with
    | false => exact ⟨token.kind, rfl, .inr rfl⟩
    | true => exact ⟨.keyword, rfl, .inl rfl⟩

/-- A key, a name behind a dot and an arrow; nothing is written for the last name. -/
theorem key_and_member_stay_names :
    let built := ofMarks "\x7bif:of=>a.if" [⟨.bracket, 0, 1⟩, ⟨.identifier, 1, 3⟩,
      ⟨.operator, 3, 4⟩, ⟨.identifier, 4, 6⟩, ⟨.operator, 6, 8⟩, ⟨.identifier, 8, 9⟩,
      ⟨.delimiter, 9, 10⟩, ⟨.identifier, 10, 12⟩]
    let stream := built.replace 7 ""
    stream.Same built ∧ stream.IsReservedUse 3 ∧ ¬ stream.IsReservedUse 1 ∧
      ¬ stream.IsReservedUse 7 ∧ stream.classify.kind? 4 = some .keyword ∧
      [7, 4, 3, 1, 0, 2, 6, 5].foldl classifyAt stream = stream.classify := by
  intro built stream
  have hsame : stream.Same built := Same.replace built 7 ""
  obtain ⟨hkind, -, horder, -⟩ := classification_is_local hsame
  have hof : stream.classify.kind? 3 = some .keyword := by decide +kernel
  have harrow : stream.classify.kind? 4 = some .keyword := by decide +kernel
  have hkey : stream.classify.kind? 1 ≠ some .keyword := by decide +kernel
  have hmember : stream.classify.kind? 7 ≠ some .keyword := by decide +kernel
  have huse : stream.IsReservedUse 3 := by
    rcases (hkind 3).mp hof with hbefore | hbecomes | huse
    · exact absurd hbefore (by decide)
    · exact absurd hbecomes.kind (by decide)
    · exact huse
  refine ⟨hsame, huse, fun h => hkey ((hkind 1).mpr (.inr (.inr h))),
    fun h => hmember ((hkind 7).mpr (.inr (.inr h))), harrow, horder _ ?_⟩
  decide

end ScriptLink.TokenStream
