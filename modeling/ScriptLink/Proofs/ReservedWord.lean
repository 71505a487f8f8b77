import ScriptLink.Proofs.Neighbour

/-!
# What the classification decides

The classification goes over the stream it changes, but no visit reads what another one wrote: the
guards ask for texts and links, and a visit changes one kind. So the kinds it leaves behind are
given by the stream as it was.

* **`TokenStream.Promotes`** — streams that have the same tokens, except that some are keywords in
  one of them. Texts, links and places are the same in both.
* **`TokenStream.isPromoted_classifyAt`** — a visit decides about its own token for good and leaves
  the decision about every other one as it is.
* **`TokenStream.get?_foldl_classifyAt`** — so visits to some tokens, in any order, change those of
  them that were promoted from the start.
* **`TokenStream.kind?_classify`** — a token becomes a keyword exactly if it was promoted from the
  start, and keeps its kind otherwise.
* **`TokenStream.linked_classify`** — trivia stays trivia, so the links remain exact.
-/

namespace ScriptLink

/-- The token as a keyword if it is promoted, and as it is otherwise. -/
def Token.promoteIf (promoted : Bool) (token : Token) : Token :=
  if promoted then { token with kind := .keyword } else token

theorem Token.promoteIf_promoteIf (first second : Bool) (token : Token) :
    (token.promoteIf first).promoteIf second = token.promoteIf (first || second) := by
  cases first <;> cases second <;> rfl

namespace TokenStream

variable {α : Type} {stream other : TokenStream}

/-! ## Streams up to keywords -/

/-- The other stream has the same tokens, except that some of them are keywords now. -/
def Promotes (stream other : TokenStream) : Prop :=
  ∀ j, ∃ promoted, other.get? j = (stream.get? j).map (Token.promoteIf promoted)

namespace Promotes

/-- A view that does not look at the kind is the same. -/
theorem map (h : stream.Promotes other) (view : Token → α)
    (hview : ∀ (token : Token) (kind : TokenKind), view { token with kind := kind } = view token)
    (j : Nat) : (other.get? j).map view = (stream.get? j).map view := by
  obtain ⟨promoted, htoken⟩ := h j
  rw [htoken, Option.map_map]
  refine Option.map_congr fun token _ => ?_
  cases promoted with
  | false => rfl
  | true => exact hview token .keyword

theorem lexeme (h : stream.Promotes other) : other.lexeme = stream.lexeme :=
  funext fun j => congrArg (Option.getD · "") (h.map _ (fun _ _ => rfl) j)

theorem offset (h : stream.Promotes other) : other.offset = stream.offset :=
  funext fun j => congrArg (Option.getD · 0) (h.map _ (fun _ _ => rfl) j)

theorem prev (h : stream.Promotes other) : other.prev = stream.prev :=
  funext fun j => bind_eq_of_map_eq (h.map Token.prev (fun _ _ => rfl) j)

theorem next (h : stream.Promotes other) : other.next = stream.next :=
  funext fun j => bind_eq_of_map_eq (h.map Token.next (fun _ _ => rfl) j)

end Promotes

/-! ## One visit -/

theorem get?_setKind (stream : TokenStream) (id j : Nat) (kind : TokenKind) :
    (stream.setKind id kind).get? j =
      if j = id then (stream.get? j).map fun token => { token with kind := kind }
      else stream.get? j := by
  unfold setKind get?
  rw [Array.getElem?_modify]
  by_cases h : j = id
  · rw [if_pos h, if_pos h.symm]
  · rw [if_neg h, if_neg (Ne.symm h)]

theorem get?_classifyAt (stream : TokenStream) (id j : Nat) :
    (stream.classifyAt id).get? j =
      (stream.get? j).map (Token.promoteIf (decide (j = id) && stream.isPromoted id)) := by
  have hkept : (stream.get? j).map (Token.promoteIf false) = stream.get? j := Option.map_id'
  unfold classifyAt
  cases hpromoted : stream.isPromoted id with
  | false => rw [if_neg Bool.false_ne_true, Bool.and_false, hkept]
  | true =>
    rw [if_pos rfl, get?_setKind, Bool.and_true]
    by_cases h : j = id
    · rw [if_pos h, decide_eq_true h]
      rfl
    · rw [if_neg h, decide_eq_false h, hkept]

theorem promotes_classifyAt (stream : TokenStream) (id : Nat) :
    stream.Promotes (stream.classifyAt id) :=
  fun j => ⟨_, get?_classifyAt stream id j⟩

theorem kind?_of_isPromoted {id : Nat} (h : stream.isPromoted id = true) :
    stream.kind? id = some .operator ∨ stream.kind? id = some .identifier := by
  unfold isPromoted at h
  split at h
  · next hkind => exact .inl hkind
  · next hkind => exact .inr hkind
  · exact absurd h (by simp)

/-- What a promotion depends on: the kind of the token, the texts, and its links. -/
theorem isPromoted_congr {first second : TokenStream} {id : Nat}
    (hkind : first.kind? id = second.kind? id) (hlexeme : first.lexeme = second.lexeme)
    (hprev : first.prev = second.prev) (hnext : first.next = second.next) :
    first.isPromoted id = second.isPromoted id := by
  unfold isPromoted isMember isKey reads
  rw [hkind, hlexeme, hprev, hnext]

/-- **A visit disturbs no other**: its own token is promoted no more, and a promotion of any other
one is decided as before. -/
theorem isPromoted_classifyAt (stream : TokenStream) (id j : Nat) :
    (stream.classifyAt id).isPromoted j = (decide (j ≠ id) && stream.isPromoted j) := by
  have hpromotes := promotes_classifyAt stream id
  by_cases h : j = id
  · subst h
    rw [decide_eq_false (not_not_intro rfl), Bool.false_and]
    cases hpromoted : stream.isPromoted j with
    | false =>
      unfold classifyAt
      rw [if_neg (by rw [hpromoted]; simp), hpromoted]
    | true =>
      -- the token is a keyword now, and only operators and identifiers are promoted
      have hkeyword : (stream.classifyAt j).kind? j = (stream.kind? j).map fun _ => .keyword := by
        unfold kind?
        rw [get?_classifyAt, hpromoted, decide_eq_true rfl, Option.map_map, Option.map_map]
        rfl
      unfold isPromoted
      rw [hkeyword]
      rcases kind?_of_isPromoted hpromoted with hkind | hkind <;> rw [hkind] <;> rfl
  · have hkind : (stream.classifyAt id).kind? j = stream.kind? j := by
      unfold kind?
      rw [get?_classifyAt, decide_eq_false h]
      exact congrArg (Option.map Token.kind) Option.map_id'
    rw [decide_eq_true h, Bool.true_and,
      isPromoted_congr hkind hpromotes.lexeme hpromotes.prev hpromotes.next]

/-! ## All visits -/

/-- Visits to some tokens, in any order and however often, make keywords of those among them that
were promoted from the start. -/
theorem get?_foldl_classifyAt (stream : TokenStream) (ids : List Nat) (j : Nat) :
    (ids.foldl classifyAt stream).get? j =
      (stream.get? j).map (Token.promoteIf (decide (j ∈ ids) && stream.isPromoted j)) := by
  induction ids generalizing stream with
  | nil => exact Option.map_id'.symm
  | cons id rest ih =>
    rw [List.foldl_cons, ih, get?_classifyAt, isPromoted_classifyAt, Option.map_map]
    refine Option.map_congr fun token _ => ?_
    rw [Function.comp_apply, Token.promoteIf_promoteIf]
    by_cases h : j = id
    · subst h
      simp
    · simp [h]

theorem size_of_isPromoted {id : Nat} (h : stream.isPromoted id = true) : id < stream.size := by
  rcases kind?_of_isPromoted h with hkind | hkind
  · exact lt_size_of_kind? hkind
  · exact lt_size_of_kind? hkind

/-- **The tokens after the classification** are given by the stream before it. -/
theorem get?_classify (stream : TokenStream) (id : Nat) :
    stream.classify.get? id = (stream.get? id).map (Token.promoteIf (stream.isPromoted id)) := by
  have hvisited := get?_foldl_classifyAt stream (List.range stream.size) id
  rw [show stream.classify.get? id = _ from hvisited]
  cases hpromoted : stream.isPromoted id with
  | false => rw [Bool.and_false]
  | true => rw [decide_eq_true (List.mem_range.mpr (size_of_isPromoted hpromoted)), Bool.true_and]

theorem promotes_classify (stream : TokenStream) : stream.Promotes stream.classify :=
  fun j => ⟨_, get?_classify stream j⟩

theorem kind?_classify (stream : TokenStream) (id : Nat) :
    stream.classify.kind? id =
      if stream.isPromoted id = true then some .keyword else stream.kind? id := by
  unfold kind?
  rw [get?_classify, Option.map_map]
  cases hpromoted : stream.isPromoted id with
  | false => rfl
  | true =>
    obtain ⟨token, htoken⟩ : ∃ token, stream.get? id = some token :=
      ⟨_, Array.getElem?_eq_getElem (size_of_isPromoted hpromoted)⟩
    rw [htoken]
    rfl

theorem lexeme_classify (stream : TokenStream) : stream.classify.lexeme = stream.lexeme :=
  (promotes_classify stream).lexeme

theorem prev_classify (stream : TokenStream) : stream.classify.prev = stream.prev :=
  (promotes_classify stream).prev

theorem next_classify (stream : TokenStream) : stream.classify.next = stream.next :=
  (promotes_classify stream).next

theorem offset_classify (stream : TokenStream) : stream.classify.offset = stream.offset :=
  (promotes_classify stream).offset

theorem isMeaningful_classify (stream : TokenStream) (id : Nat) :
    stream.classify.IsMeaningful id ↔ stream.IsMeaningful id := by
  unfold IsMeaningful
  rw [kind?_classify]
  by_cases hpromoted : stream.isPromoted id = true
  · rw [if_pos hpromoted]
    have hold : ∃ kind, stream.kind? id = some kind ∧ kind.isTrivia = false := by
      rcases kind?_of_isPromoted hpromoted with hkind | hkind <;> exact ⟨_, hkind, rfl⟩
    exact iff_of_true ⟨.keyword, rfl, rfl⟩ hold
  · rw [if_neg hpromoted]

theorem item?_eq (stream : TokenStream) (id : Nat) :
    stream.item? id =
      (stream.kind? id).map fun kind => ⟨id, kind, stream.lexeme id, stream.offset id⟩ := by
  unfold item? kind? lexeme offset
  cases stream.get? id <;> rfl

/-- An item with the kind that the classification gives to its token. -/
def promote (stream : TokenStream) (item : Item) : Item :=
  { item with kind := if stream.isPromoted item.id = true then .keyword else item.kind }

/-- **The items of a classified stream** are those of the stream before, and some of them are
keywords now. -/
theorem itemsFrom_classify (stream : TokenStream) (start : Nat) :
    stream.classify.itemsFrom start = (stream.itemsFrom start).map stream.promote := by
  have hmeans (id : Nat) :
      stream.classify.meaningful? id = (stream.meaningful? id).map stream.promote := by
    unfold meaningful?
    rw [item?_eq, item?_eq, kind?_classify, lexeme_classify, offset_classify]
    by_cases hpromoted : stream.isPromoted id = true
    · -- a promoted token was no trivia before
      rcases kind?_of_isPromoted hpromoted with hkind | hkind <;>
        simp [hpromoted, hkind, promote, TokenKind.isTrivia, Option.filter_some]
    · cases stream.kind? id with
      | none => simp [hpromoted]
      | some kind => cases htrivia : kind.isTrivia <;>
          simp [hpromoted, promote, htrivia, Option.filter_some]
  unfold itemsFrom
  rw [size_classify, List.map_filterMap]
  exact congrArg (List.filterMap · _) (funext hmeans)

/-- Trivia stays trivia, so the links of a classified stream are exact. -/
theorem linked_classify (h : stream.Linked) : stream.classify.Linked :=
  h.congr (size_classify stream) (next_classify stream) (isMeaningful_classify stream)

end TokenStream

end ScriptLink
