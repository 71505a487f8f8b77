import ScriptLink.Proofs.TokenStream
import ScriptLink.Statement

/-!
# Neighbours

The links of a stream are made in one pass over its marks: the link backwards is handed down the
list and the link forwards comes back up. What they come to does not depend on the pass: the nearest
token, on either side, that is no trivia.

* **`Mark.first?`**, **`Mark.last?`** — the nearest of some marks that is no trivia.
* **`TokenStream.link_getElem?`** — the token that is made for a mark, whatever stands around it.
* **`TokenStream.IsNext`** — the nearest token behind another. In a stream that is `Linked`, the
  link forwards leads there, and a stream built from marks is (`linked_ofMarks`).
* **`TokenStream.itemsFrom`** — the tokens from some place on that are no trivia. They are what a
  statement is read from (`itemsAfter_eq`), and `itemsFrom_split` says where each of them stands.
-/

namespace ScriptLink

namespace Mark

/-- The index of the first of the marks that is no trivia, if the first of all has index `index`. -/
def first? (index : Nat) : List Mark → Option Nat
  | [] => none
  | mark :: rest => if mark.kind.isTrivia then first? (index + 1) rest else some index

/-- The index of the last of the marks that is no trivia; `before` if there is none. -/
def last? (index : Nat) (before : Option Nat) : List Mark → Option Nat
  | [] => before
  | mark :: rest => last? (index + 1) (if mark.kind.isTrivia then before else some index) rest

theorem first?_eq_some_iff {index found : Nat} {marks : List Mark} :
    first? index marks = some found ↔
      ∃ offset mark, found = index + offset ∧ marks[offset]? = some mark ∧
        mark.kind.isTrivia = false ∧
        ∀ k other, k < offset → marks[k]? = some other → other.kind.isTrivia = true := by
  induction marks generalizing index with
  | nil => simp [first?]
  | cons mark rest ih =>
    unfold first?
    by_cases htrivia : mark.kind.isTrivia = true
    · rw [if_pos htrivia, ih]
      constructor
      · rintro ⟨offset, later, rfl, hlater, hkind, hbefore⟩
        refine ⟨offset + 1, later, by omega, hlater, hkind, fun k other hk hother => ?_⟩
        cases k with
        | zero =>
          obtain rfl := Option.some.inj hother
          exact htrivia
        | succ k => exact hbefore k other (by omega) hother
      · rintro ⟨offset, later, rfl, hlater, hkind, hbefore⟩
        cases offset with
        | zero =>
          obtain rfl := Option.some.inj hlater
          rw [htrivia] at hkind
          exact absurd hkind (by decide)
        | succ offset =>
          exact ⟨offset, later, by omega, hlater, hkind,
            fun k other hk hother => hbefore (k + 1) other (by omega) hother⟩
    · have hkind : mark.kind.isTrivia = false := by simpa using htrivia
      rw [if_neg htrivia]
      constructor
      · rintro h
        obtain rfl := Option.some.inj h
        exact ⟨0, mark, rfl, rfl, hkind, fun k _ hk => absurd hk (by omega)⟩
      · rintro ⟨offset, later, rfl, hlater, -, hbefore⟩
        cases offset with
        | zero => rfl
        | succ offset => exact absurd (hbefore 0 mark (by omega) rfl) htrivia

/-- One mark more at the end is the last one, unless it is trivia. -/
theorem last?_concat (index : Nat) (before : Option Nat) (marks : List Mark) (mark : Mark) :
    last? index before (marks ++ [mark]) =
      if mark.kind.isTrivia then last? index before marks else some (index + marks.length) := by
  induction marks generalizing index before with
  | nil => rfl
  | cons other rest ih =>
    show last? (index + 1) _ (rest ++ [mark]) = _
    rw [ih, List.length_cons, show index + 1 + rest.length = index + (rest.length + 1) by omega]
    rfl

end Mark

namespace TokenStream

/-! ## The links of a mark's token -/

theorem link_snd (source : String) (index : Nat) (last : Option Nat) (marks : List Mark) :
    (link source index last marks).2 = Mark.first? index marks := by
  induction marks generalizing index last with
  | nil => rfl
  | cons mark rest ih =>
    show (if mark.kind.isTrivia then (link source _ _ rest).2 else some index) = _
    rw [ih]
    rfl

/-- The token for a mark: its neighbours are the nearest on either side that are no trivia. -/
theorem link_getElem? (source : String) (index : Nat) (last : Option Nat) (before after : List Mark)
    (mark : Mark) :
    (link source index last (before ++ mark :: after)).1[before.length]? =
      some ⟨mark.kind, mark.span, slice? source mark.span.start mark.span.stop,
        Mark.last? index last before, Mark.first? (index + before.length + 1) after, none⟩ := by
  induction before generalizing index last with
  | nil =>
    show some (Token.mk _ _ _ last (link source _ _ after).2 none) = _
    rw [link_snd]
    rfl
  | cons other rest ih =>
    show (link source _ _ (rest ++ mark :: after)).1[rest.length]? = _
    rw [ih, show index + 1 + rest.length + 1 = index + (other :: rest).length + 1 by
      rw [List.length_cons]; omega]
    rfl

/-! ## The nearest token behind another -/

/-- The token `id` is there and is no trivia. -/
def IsMeaningful (stream : TokenStream) (id : Nat) : Prop :=
  ∃ kind, stream.kind? id = some kind ∧ kind.isTrivia = false

/-- `found` is the nearest token behind `id` that is no trivia. -/
structure IsNext (stream : TokenStream) (id found : Nat) : Prop where
  lt : id < found
  meaningful : stream.IsMeaningful found
  nearest : ∀ k, id < k → k < found → ¬ stream.IsMeaningful k

/-- The links forwards lead to the nearest tokens that are no trivia. -/
def Linked (stream : TokenStream) : Prop :=
  ∀ id found, id < stream.size → (stream.next id = some found ↔ stream.IsNext id found)

theorem IsMeaningful.lt_size {stream : TokenStream} {id : Nat} (h : stream.IsMeaningful id) :
    id < stream.size := by
  obtain ⟨kind, hkind, -⟩ := h
  exact lt_size_of_kind? hkind

theorem IsNext.congr {first second : TokenStream} {id found : Nat}
    (hmeans : ∀ k, first.IsMeaningful k ↔ second.IsMeaningful k) (h : first.IsNext id found) :
    second.IsNext id found :=
  ⟨h.lt, (hmeans found).mp h.meaningful,
    fun k hk hlt hk' => h.nearest k hk hlt ((hmeans k).mpr hk')⟩

/-- Exactness is a matter of the links and of what is trivia. -/
theorem Linked.congr {first second : TokenStream} (h : first.Linked)
    (hsize : second.size = first.size) (hnext : second.next = first.next)
    (hmeans : ∀ k, second.IsMeaningful k ↔ first.IsMeaningful k) : second.Linked := by
  intro id found hid
  rw [hsize] at hid
  rw [hnext, h id found hid]
  exact ⟨IsNext.congr fun k => (hmeans k).symm, IsNext.congr hmeans⟩

theorem get?_ofMarks (source : String) (marks : List Mark) (id : Nat) :
    (ofMarks source marks).get? id = (link source 0 none marks).1[id]? := by
  show (link source 0 none marks).1.toArray[id]? = _
  rw [List.getElem?_toArray]

theorem kind?_ofMarks (source : String) (marks : List Mark) (id : Nat) :
    (ofMarks source marks).kind? id = (marks[id]?).map Mark.kind := by
  have hkinds : (link source 0 none marks).1.map Token.kind = marks.map Mark.kind :=
    link_map (fun _ _ _ => rfl) 0 none marks
  unfold kind?
  rw [get?_ofMarks, ← List.getElem?_map, hkinds, List.getElem?_map]

/-- The token that a mark becomes: the rest of the marks is seen in its links only. -/
theorem get?_ofMarks_of_mark (source : String) {marks : List Mark} {id : Nat} {mark : Mark}
    (h : marks[id]? = some mark) :
    (ofMarks source marks).get? id =
      some ⟨mark.kind, mark.span, slice? source mark.span.start mark.span.stop,
        Mark.last? 0 none (marks.take id), Mark.first? (id + 1) (marks.drop (id + 1)), none⟩ := by
  obtain ⟨hid, rfl⟩ := List.getElem?_eq_some_iff.mp h
  have hsplit : marks.take id ++ marks[id] :: marks.drop (id + 1) = marks := by
    rw [List.getElem_cons_drop, List.take_append_drop]
  have hlength : (marks.take id).length = id := by rw [List.length_take]; omega
  have htoken := link_getElem? source 0 none (marks.take id) (marks.drop (id + 1)) marks[id]
  rw [hsplit, hlength, Nat.zero_add] at htoken
  rw [get?_ofMarks, htoken]

theorem prev_ofMarks (source : String) {marks : List Mark} {id : Nat} (hid : id < marks.length) :
    (ofMarks source marks).prev id = Mark.last? 0 none (marks.take id) := by
  unfold prev
  rw [get?_ofMarks_of_mark source (List.getElem?_eq_getElem hid)]
  rfl

theorem next_ofMarks (source : String) {marks : List Mark} {id : Nat} (hid : id < marks.length) :
    (ofMarks source marks).next id = Mark.first? (id + 1) (marks.drop (id + 1)) := by
  unfold next
  rw [get?_ofMarks_of_mark source (List.getElem?_eq_getElem hid)]
  rfl

theorem isMeaningful_ofMarks {source : String} {marks : List Mark} {id : Nat} :
    (ofMarks source marks).IsMeaningful id ↔
      ∃ mark, marks[id]? = some mark ∧ mark.kind.isTrivia = false := by
  unfold IsMeaningful
  rw [kind?_ofMarks]
  constructor
  · rintro ⟨_, hkind, hfalse⟩
    obtain ⟨mark, hmark, rfl⟩ := Option.map_eq_some_iff.mp hkind
    exact ⟨mark, hmark, hfalse⟩
  · rintro ⟨mark, hmark, hfalse⟩
    exact ⟨mark.kind, Option.map_eq_some_iff.mpr ⟨mark, hmark, rfl⟩, hfalse⟩

theorem linked_ofMarks (source : String) (marks : List Mark) : (ofMarks source marks).Linked := by
  intro id found hid
  rw [size_ofMarks] at hid
  rw [next_ofMarks source hid, Mark.first?_eq_some_iff]
  constructor
  · rintro ⟨offset, mark, rfl, hmark, hkind, hbefore⟩
    rw [List.getElem?_drop] at hmark
    refine ⟨by omega, isMeaningful_ofMarks.mpr ⟨mark, hmark, hkind⟩, fun k hk hlt hmeans => ?_⟩
    obtain ⟨other, hother, hfalse⟩ := isMeaningful_ofMarks.mp hmeans
    have htrivia := hbefore (k - id - 1) other (by omega) (by
      rw [List.getElem?_drop, ← hother]
      congr 1
      omega)
    rw [hfalse] at htrivia
    exact absurd htrivia (by decide)
  · rintro ⟨hlt, hfound, hnearest⟩
    obtain ⟨mark, hmark, hkind⟩ := isMeaningful_ofMarks.mp hfound
    refine ⟨found - id - 1, mark, by omega, ?_, hkind, fun k other hk hother => ?_⟩
    · rw [List.getElem?_drop, ← hmark]
      congr 1
      omega
    · rw [List.getElem?_drop] at hother
      have hnot := hnearest (id + 1 + k) (by omega) (by omega)
      cases htrivia : other.kind.isTrivia with
      | true => rfl
      | false => exact absurd (isMeaningful_ofMarks.mpr ⟨other, hother, htrivia⟩) hnot

/-! ## All tokens behind another -/

section

variable {stream : TokenStream} {id start found : Nat} {item : Item} {before rest : List Item}

/-- The token `id` as an item, unless it is trivia. -/
def meaningful? (stream : TokenStream) (id : Nat) : Option Item :=
  (stream.item? id).filter fun item => !item.kind.isTrivia

/-- The tokens from `start` on that are no trivia, in order. -/
def itemsFrom (stream : TokenStream) (start : Nat) : List Item :=
  (List.range' start (stream.size - start)).filterMap stream.meaningful?

theorem id_of_meaningful? (h : stream.meaningful? id = some item) : item.id = id := by
  obtain ⟨hitem, -⟩ := Option.filter_eq_some_iff.mp h
  obtain ⟨token, -, rfl⟩ := Option.map_eq_some_iff.mp hitem
  rfl

theorem isMeaningful_iff : stream.IsMeaningful id ↔ ∃ item, stream.meaningful? id = some item := by
  unfold IsMeaningful meaningful? kind? item?
  cases stream.get? id with
  | none => simp
  | some token => cases htrivia : token.kind.isTrivia <;> simp [htrivia]

theorem lt_size_of_meaningful? (h : stream.meaningful? id = some item) : id < stream.size :=
  (isMeaningful_iff.mpr ⟨item, h⟩).lt_size

theorem kind?_of_meaningful? (h : stream.meaningful? id = some item) :
    stream.kind? id = some item.kind := by
  obtain ⟨hitem, -⟩ := Option.filter_eq_some_iff.mp h
  obtain ⟨token, htoken, rfl⟩ := Option.map_eq_some_iff.mp hitem
  exact congrArg (Option.map Token.kind) htoken

theorem lexeme_of_meaningful? (h : stream.meaningful? id = some item) :
    stream.lexeme id = item.text := by
  obtain ⟨hitem, -⟩ := Option.filter_eq_some_iff.mp h
  obtain ⟨token, htoken, rfl⟩ := Option.map_eq_some_iff.mp hitem
  unfold lexeme
  rw [htoken]
  rfl

theorem isTrivia_of_meaningful? (h : stream.meaningful? id = some item) :
    item.kind.isTrivia = false := by
  obtain ⟨-, htrivia⟩ := Option.filter_eq_some_iff.mp h
  simpa using htrivia

theorem itemsFrom_eq_cons (h : stream.meaningful? id = some item) :
    stream.itemsFrom id = item :: stream.itemsFrom (id + 1) := by
  have hid := lt_size_of_meaningful? h
  unfold itemsFrom
  rw [show stream.size - id = stream.size - (id + 1) + 1 by omega, List.range'_succ,
    List.filterMap_cons_some h]

theorem itemsFrom_of_none (h : stream.meaningful? id = none) :
    stream.itemsFrom id = stream.itemsFrom (id + 1) := by
  unfold itemsFrom
  by_cases hid : id < stream.size
  · rw [show stream.size - id = stream.size - (id + 1) + 1 by omega, List.range'_succ,
      List.filterMap_cons_none h]
  · rw [show stream.size - id = 0 by omega, show stream.size - (id + 1) = 0 by omega]
    rfl

/-- What is behind some trivia is what is behind its end. -/
theorem itemsFrom_of_trivia (hle : start ≤ found)
    (htrivia : ∀ k, start ≤ k → k < found → stream.meaningful? k = none) :
    stream.itemsFrom start = stream.itemsFrom found := by
  induction hle with
  | refl => rfl
  | @step last hle ih =>
    rw [ih fun k hk hlt => htrivia k hk (Nat.lt_succ_of_lt hlt)]
    exact itemsFrom_of_none (htrivia last hle (Nat.lt_succ_self last))

theorem itemsFrom_eq_nil (h : stream.size ≤ start) : stream.itemsFrom start = [] := by
  unfold itemsFrom
  rw [Nat.sub_eq_zero_of_le h]
  rfl

/-- Where a token divides the tokens from `start` on: the ones before it are the ones up to its
place, the ones behind it are behind its place. -/
theorem itemsFrom_split (before : List Item) (h : stream.itemsFrom start = before ++ item :: rest) :
    start ≤ item.id ∧ stream.meaningful? item.id = some item ∧
      stream.itemsFrom (item.id + 1) = rest ∧
      ∀ k other, start ≤ k → k < item.id → stream.meaningful? k = some other → other ∈ before := by
  induction hleft : stream.size - start generalizing start before with
  | zero =>
    rw [itemsFrom_eq_nil (by omega)] at h
    exact absurd h (by simp)
  | succ left ih =>
    cases hfirst : stream.meaningful? start with
    | none =>
      rw [itemsFrom_of_none hfirst] at h
      obtain ⟨hle, hitem, hrest, hbefore⟩ := ih _ h (by omega)
      refine ⟨by omega, hitem, hrest, fun k other hk hlt hother => ?_⟩
      rcases Nat.eq_or_lt_of_le hk with rfl | hk
      · exact absurd hother (by simp [hfirst])
      · exact hbefore k other hk hlt hother
    | some first =>
      rw [itemsFrom_eq_cons hfirst] at h
      cases before with
      | nil =>
        obtain ⟨rfl, rfl⟩ := List.cons.inj h
        obtain rfl := id_of_meaningful? hfirst
        exact ⟨Nat.le_refl _, hfirst, rfl, fun k _ hk hlt _ => absurd hlt (by omega)⟩
      | cons other later =>
        obtain ⟨rfl, hlater⟩ := List.cons.inj h
        obtain ⟨hle, hitem, hrest, hbefore⟩ := ih _ hlater (by omega)
        refine ⟨by omega, hitem, hrest, fun k item hk hlt hmeans => ?_⟩
        rcases Nat.eq_or_lt_of_le hk with rfl | hk
        · exact List.mem_cons.mpr (.inl (Option.some.inj (hmeans.symm.trans hfirst)))
        · exact List.mem_cons_of_mem _ (hbefore k item hk hlt hmeans)

/-- The next token, and what is behind it. -/
theorem itemsFrom_of_isNext (h : stream.IsNext id found) :
    ∃ item, item.id = found ∧ stream.meaningful? found = some item ∧
      stream.itemsFrom (id + 1) = item :: stream.itemsFrom (found + 1) := by
  obtain ⟨item, hitem⟩ := isMeaningful_iff.mp h.meaningful
  refine ⟨item, id_of_meaningful? hitem, hitem, ?_⟩
  rw [← itemsFrom_eq_cons hitem]
  refine itemsFrom_of_trivia h.lt fun k hk hlt => ?_
  cases hmeans : stream.meaningful? k with
  | none => rfl
  | some other => exact absurd (isMeaningful_iff.mpr ⟨other, hmeans⟩) (h.nearest k hk hlt)

theorem isNext_of_itemsFrom (h : stream.itemsFrom (id + 1) = item :: rest) :
    stream.IsNext id item.id := by
  obtain ⟨hle, hitem, -, hbefore⟩ := itemsFrom_split [] h
  refine ⟨hle, isMeaningful_iff.mpr ⟨item, hitem⟩, fun k hk hlt hmeans => ?_⟩
  obtain ⟨other, hother⟩ := isMeaningful_iff.mp hmeans
  exact absurd (hbefore k other hk hlt hother) List.not_mem_nil

/-- With links for fuel, there is enough of it for all tokens that follow. -/
theorem following_eq (hlinked : stream.Linked) (count : Nat) (hid : id < stream.size)
    (hcount : stream.size - (id + 1) ≤ count) :
    stream.following count id = stream.itemsFrom (id + 1) := by
  induction count generalizing id with
  | zero => exact (itemsFrom_eq_nil (by omega)).symm
  | succ count ih =>
    unfold following
    cases hnext : stream.next id with
    | none =>
      cases hitems : stream.itemsFrom (id + 1) with
      | nil => rfl
      | cons item rest =>
        have hfound := (hlinked id item.id hid).mpr (isNext_of_itemsFrom hitems)
        rw [hnext] at hfound
        exact absurd hfound (by simp)
    | some found =>
      have hisNext := (hlinked id found hid).mp hnext
      obtain ⟨item, rfl, hitem, hitems⟩ := itemsFrom_of_isNext hisNext
      obtain ⟨hitem?, -⟩ := Option.filter_eq_some_iff.mp hitem
      have hlt := hisNext.lt
      rw [hitems, ← ih hisNext.meaningful.lt_size (by omega)]
      dsimp only
      rw [hitem?]

/-- **What a statement is read from**: the tokens behind its keyword that are no trivia. -/
theorem itemsAfter_eq (hlinked : stream.Linked) (hid : id < stream.size) :
    stream.itemsAfter id = stream.itemsFrom (id + 1) :=
  following_eq hlinked stream.size hid (by omega)

end

end TokenStream

end ScriptLink
