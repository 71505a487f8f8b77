import ScriptLink.Proofs.Rescan
import ScriptLink.Proofs.Written

/-!
# A stream as its pieces

The tokens of a script are its pieces with links between them. What the links lead to can be read
off the list of the pieces: the nearest text on either side that is no trivia. So whether a word is
a keyword is a question about the pieces before it and the pieces behind it.

* **`Piece.lastText?`**, **`Piece.firstText?`** — the nearest text at the end, and at the beginning,
  of some pieces.
* **`TokenStream.isKeyword_iff`** — a reserved word is a keyword unless the two texts around it make
  it the name of a property, `IsProperty`.
* **`TokenStream.isDynamic_iff`** — the expressions that begin with `import`, likewise.
-/

namespace ScriptLink

namespace Piece

variable {pieces rest : List Piece} {piece : Piece}

/-- The text of the first piece that is no trivia. -/
def firstText? (pieces : List Piece) : Option (List Char) :=
  (pieces.filter isMeaningful).head?.map Piece.text

/-- The text of the last piece that is no trivia. -/
def lastText? (pieces : List Piece) : Option (List Char) :=
  (pieces.filter isMeaningful).getLast?.map Piece.text

theorem firstText?_cons (piece : Piece) (rest : List Piece) :
    firstText? (piece :: rest) =
      if piece.kind.isTrivia then firstText? rest else some piece.text := by
  unfold firstText? isMeaningful
  cases h : piece.kind.isTrivia <;> simp [h]

theorem lastText?_concat (pieces : List Piece) (piece : Piece) :
    lastText? (pieces ++ [piece]) =
      if piece.kind.isTrivia then lastText? pieces else some piece.text := by
  unfold lastText? isMeaningful
  cases h : piece.kind.isTrivia <;> simp [h]

/-- The texts on both sides of a name show that it names a property. -/
def IsProperty (before behind : Option (List Char)) : Prop :=
  before = some ['.'] ∨ before = some ['?', '.'] ∨
    (behind = some [':'] ∧ (before = some ['\x7b'] ∨ before = some [',']))

end Piece

namespace TokenStream

open Piece

variable {stream : TokenStream} {source : String} {id : Nat}

theorem length_toPieces (stream : TokenStream) : stream.toPieces.length = stream.size := by
  simp [toPieces, size]

theorem getElem?_toPieces (stream : TokenStream) (id : Nat) :
    stream.toPieces[id]? = (stream.get? id).map Token.toPiece := by
  simp [toPieces, get?]

theorem kind?_eq (stream : TokenStream) (id : Nat) :
    stream.kind? id = (stream.toPieces[id]?).map Piece.kind := by
  rw [getElem?_toPieces, Option.map_map]
  rfl

/-- The piece at a place. -/
theorem piece_of_lt (h : id < stream.size) :
    ∃ piece, stream.toPieces.drop id = piece :: stream.toPieces.drop (id + 1) ∧
      stream.toPieces.take (id + 1) = stream.toPieces.take id ++ [piece] ∧
      stream.kind? id = some piece.kind ∧ (stream.lexeme id).toList = piece.text := by
  have hlt : id < stream.toPieces.length := by rw [length_toPieces]; exact h
  have hpiece : stream.toPieces[id]? = some stream.toPieces[id] := List.getElem?_eq_getElem hlt
  refine ⟨stream.toPieces[id], (List.getElem_cons_drop hlt).symm, ?_, ?_, ?_⟩
  · rw [List.take_add_one, hpiece]
    rfl
  · rw [kind?_eq, hpiece]
    rfl
  · rw [getElem?_toPieces] at hpiece
    obtain ⟨token, htoken, hpiece⟩ := Option.map_eq_some_iff.mp hpiece
    rw [← hpiece]
    unfold lexeme
    rw [htoken]
    rfl

/-- The last text through a token that is no trivia is the text of the token. -/
theorem lastText?_take {item : Item} (hmeans : stream.classify.meaningful? id = some item) :
    lastText? (stream.toPieces.take (id + 1)) = some item.text.toList := by
  obtain ⟨kind, hkind, htrivia⟩ := (isMeaningful_classify stream id).mp
    (isMeaningful_iff.mpr ⟨item, hmeans⟩)
  have hid := lt_size_of_meaningful? hmeans
  rw [size_classify] at hid
  obtain ⟨piece, -, htake, hpiece, htext⟩ := piece_of_lt hid
  obtain rfl := Option.some.inj (hkind.symm.trans hpiece)
  rw [htake, lastText?_concat, htrivia, ← htext, ← lexeme_classify, lexeme_of_meaningful? hmeans]
  rfl

theorem lastText?_of_isKeyword {word : String} (h : stream.classify.IsKeyword id word) :
    lastText? (stream.toPieces.take (id + 1)) = some word.toList := by
  obtain ⟨item, hmeans⟩ := isMeaningful_iff.mp ⟨.keyword, h.kind, rfl⟩
  rw [lastText?_take hmeans, ← lexeme_of_meaningful? hmeans, h.reads]

/-- The pieces from one place up to another. -/
def piecesBetween (stream : TokenStream) (start stop : Nat) : List Piece :=
  (stream.toPieces.drop start).take (stop - start)

theorem drop_eq_append (stream : TokenStream) {start stop : Nat} (hle : start ≤ stop) :
    stream.toPieces.drop start = stream.piecesBetween start stop ++ stream.toPieces.drop stop := by
  unfold piecesBetween
  conv =>
    lhs
    rw [← List.take_append_drop (stop - start) (stream.toPieces.drop start), List.drop_drop,
      Nat.add_sub_cancel' hle]

theorem take_eq_append (stream : TokenStream) {start stop : Nat} (hle : start ≤ stop) :
    stream.toPieces.take stop = stream.toPieces.take start ++ stream.piecesBetween start stop := by
  unfold piecesBetween
  rw [← List.take_add, Nat.add_sub_cancel' hle]

theorem mem_piecesBetween {start stop : Nat} {piece : Piece}
    (h : piece ∈ stream.piecesBetween start stop) :
    ∃ j, start ≤ j ∧ j < stop ∧ stream.kind? j = some piece.kind ∧
      (stream.lexeme j).toList = piece.text := by
  obtain ⟨offset, hoffset⟩ := List.mem_iff_getElem?.mp h
  unfold piecesBetween at hoffset
  rw [List.getElem?_take] at hoffset
  split at hoffset
  · next hlt =>
    rw [List.getElem?_drop, getElem?_toPieces] at hoffset
    obtain ⟨token, htoken, rfl⟩ := Option.map_eq_some_iff.mp hoffset
    refine ⟨start + offset, by omega, by omega, congrArg (Option.map _) htoken, ?_⟩
    unfold lexeme
    rw [htoken]
    rfl
  · exact absurd hoffset (by simp)

/-- Between a place and the next item there is nothing but trivia. -/
theorem trivia_between {start : Nat} {item : Item} {rest : List Item}
    (hitems : stream.classify.itemsFrom start = item :: rest) :
    (∀ j, start ≤ j → j < item.id → ¬ stream.classify.IsMeaningful j) ∧
      ∀ other ∈ stream.piecesBetween start item.id, other.kind.isTrivia = true := by
  obtain ⟨-, -, -, hbetween⟩ := itemsFrom_split [] hitems
  have hnone : ∀ j, start ≤ j → j < item.id → ¬ stream.classify.IsMeaningful j := by
    intro j hj hlt hmeaningful
    obtain ⟨found, hfound⟩ := isMeaningful_iff.mp hmeaningful
    exact absurd (hbetween j found hj hlt hfound) List.not_mem_nil
  refine ⟨hnone, fun other hmem => ?_⟩
  obtain ⟨j, hj, hlt, hother, -⟩ := mem_piecesBetween hmem
  exact (Bool.not_eq_false _).mp fun hfalse =>
    hnone j hj hlt ((isMeaningful_classify stream j).mpr ⟨_, hother, hfalse⟩)

/-- Trivia does not change what the last text is. -/
theorem lastText?_take_of_trivia {start stop : Nat} (hle : start ≤ stop)
    (htrivia : ∀ other ∈ stream.piecesBetween start stop, other.kind.isTrivia = true) :
    lastText? (stream.toPieces.take stop) = lastText? (stream.toPieces.take start) := by
  have hnone : (stream.piecesBetween start stop).filter isMeaningful = [] :=
    List.filter_eq_nil_iff.mpr fun other hmem => by simp [isMeaningful, htrivia other hmem]
  unfold Piece.lastText?
  rw [take_eq_append stream hle, List.filter_append, hnone, List.append_nil]

/-- Tokens that write what they read write their pieces. -/
theorem writtenFrom_of_own {other : TokenStream} (hsize : other.size = stream.size)
    {start stop : Nat} (hle : start ≤ stop) (hstop : stop ≤ stream.size)
    (h : ∀ j, start ≤ j → j < stop → other.written j = stream.lexeme j) :
    other.writtenFrom start =
      texts (stream.piecesBetween start stop) ++ other.writtenFrom stop := by
  induction hcount : stop - start generalizing start with
  | zero =>
    obtain rfl : start = stop := by omega
    unfold piecesBetween
    rw [Nat.sub_self]
    rfl
  | succ count ih =>
    obtain ⟨piece, hdrop, -, -, htext⟩ := piece_of_lt (by omega : start < stream.size)
    have hlater := ih (by omega : start + 1 ≤ stop) (fun j hj => h j (by omega)) (by omega)
    have hfirst : stream.piecesBetween start stop =
        piece :: stream.piecesBetween (start + 1) stop := by
      unfold piecesBetween
      rw [hdrop, hcount, List.take_succ_cons, show stop - (start + 1) = count by omega]
    rw [writtenFrom_eq (by omega), h start (Nat.le_refl _) (by omega), hlater, hfirst, texts_cons,
      htext, List.append_assoc]

/-- The first text from a place on is the text of the first item, also once keywords are told from
names. -/
theorem firstText?_drop (stream : TokenStream) (start : Nat) :
    firstText? (stream.toPieces.drop start) =
        (stream.itemsFrom start).head?.map (fun item => item.text.toList) ∧
      firstText? (stream.toPieces.drop start) =
        (stream.classify.itemsFrom start).head?.map fun item => item.text.toList := by
  have hall (other : TokenStream) (hsize : other.size = stream.size)
      (hlexeme : other.lexeme = stream.lexeme)
      (hmeaningful : ∀ id, other.IsMeaningful id ↔ stream.IsMeaningful id) :
      firstText? (stream.toPieces.drop start) =
        (other.itemsFrom start).head?.map fun item => item.text.toList := by
    induction hleft : stream.size - start generalizing start with
    | zero =>
      rw [itemsFrom_eq_nil (by omega), List.drop_eq_nil_of_le (by rw [length_toPieces]; omega)]
      rfl
    | succ left ih =>
      obtain ⟨piece, hdrop, -, hkind, htext⟩ := piece_of_lt (by omega : start < stream.size)
      rw [hdrop, firstText?_cons]
      cases hmeans : other.meaningful? start with
      | some item =>
        obtain ⟨kind, hkind', htrivia⟩ :=
          (hmeaningful start).mp (isMeaningful_iff.mpr ⟨item, hmeans⟩)
        obtain rfl := Option.some.inj (hkind'.symm.trans hkind)
        rw [htrivia, itemsFrom_eq_cons hmeans, ← htext, ← hlexeme, lexeme_of_meaningful? hmeans]
        rfl
      | none =>
        have htrivia : piece.kind.isTrivia = true := by
          refine (Bool.not_eq_false _).mp fun hfalse => ?_
          obtain ⟨item, hitem⟩ := isMeaningful_iff.mp
            ((hmeaningful start).mpr ⟨piece.kind, hkind, hfalse⟩)
          rw [hmeans] at hitem
          exact absurd hitem (by simp)
        rw [htrivia, itemsFrom_of_none hmeans, ← ih (start + 1) (by omega)]
        rfl
  exact ⟨hall stream rfl rfl fun _ => Iff.rfl, hall stream.classify (size_classify stream)
    (lexeme_classify stream) (isMeaningful_classify stream)⟩

/-- The link forwards leads to the first text behind the token. -/
theorem text_of_next (hlinked : stream.Linked) (hid : id < stream.size) :
    (stream.next id).map (fun found => (stream.lexeme found).toList) =
      firstText? (stream.toPieces.drop (id + 1)) := by
  rw [(firstText?_drop stream (id + 1)).1]
  cases hitems : stream.itemsFrom (id + 1) with
  | nil =>
    cases hnext : stream.next id with
    | none => rfl
    | some found =>
      obtain ⟨item, -, -, hcons⟩ := itemsFrom_of_isNext ((hlinked id found hid).mp hnext)
      rw [hitems] at hcons
      exact absurd hcons (by simp)
  | cons item rest =>
    rw [(hlinked id item.id hid).mpr (isNext_of_itemsFrom hitems)]
    show some (stream.lexeme item.id).toList = some item.text.toList
    rw [lexeme_of_meaningful? (itemsFrom_split [] hitems).2.1]

/-- The link backwards leads to the last text before the token. -/
theorem text_of_prev (h : tokenize source = .ok stream) (hid : id < stream.size) :
    (stream.prev id).map (fun found => (stream.lexeme found).toList) =
      lastText? (stream.toPieces.take id) := by
  obtain ⟨marks, rfl⟩ : ∃ marks, stream = ofMarks source marks := by
    obtain ⟨found, -, heq⟩ := pieces_of_tokenize h
    exact ⟨_, heq⟩
  rw [size_ofMarks] at hid
  rw [prev_ofMarks source hid]
  -- by induction on the number of tokens before the place
  induction id with
  | zero => rfl
  | succ count ih =>
    obtain ⟨piece, -, htake, hkind, htext⟩ :=
      piece_of_lt (by rw [size_ofMarks]; omega : count < (ofMarks source marks).size)
    have hmark : marks.take (count + 1) = marks.take count ++ [marks[count]] := by
      rw [List.take_add_one, List.getElem?_eq_getElem (by omega)]
      rfl
    rw [kind?_ofMarks, List.getElem?_eq_getElem (by omega)] at hkind
    rw [htake, lastText?_concat, hmark, Mark.last?_concat, Option.some.inj hkind,
      ← ih (by omega), List.length_take]
    split
    · rfl
    · rw [← htext, Option.map_some, show 0 + min count marks.length = count by omega]

/-! ## Keywords -/

theorem reads_iff {found : Option Nat} {text : String} :
    stream.reads found text = true ↔
      found.map (fun id => (stream.lexeme id).toList) = some text.toList := by
  unfold reads
  cases found with
  | none => simp
  | some id =>
    simp only [Option.any_some, beq_iff_eq, Option.map_some, Option.some.injEq]
    exact String.toList_inj.symm

/-- A reserved word is a keyword unless it names a property. -/
theorem isKeyword_iff (h : tokenize source = .ok stream) (hid : id < stream.size) {word : String}
    (hword : isReserved word = true) :
    stream.classify.IsKeyword id word ↔
      stream.kind? id = some .identifier ∧ stream.lexeme id = word ∧
        ¬ IsProperty (lastText? (stream.toPieces.take id))
          (firstText? (stream.toPieces.drop (id + 1))) := by
  have hproperty : (stream.isMember id = true ∨ stream.isKey id = true) ↔
      IsProperty (lastText? (stream.toPieces.take id))
        (firstText? (stream.toPieces.drop (id + 1))) := by
    unfold isMember isKey IsProperty
    simp only [Bool.or_eq_true, Bool.and_eq_true, reads_iff, text_of_prev h hid,
      text_of_next (linked_of_tokenize h) hid, or_assoc]
    rfl
  have hfresh := (fits_of_tokenize h).2 id
  constructor
  · rintro ⟨hkind, hreads⟩
    rw [kind?_classify] at hkind
    rw [lexeme_classify] at hreads
    split at hkind
    · next hpromoted =>
      unfold isPromoted at hpromoted
      split at hpromoted
      · rw [← hreads, eq_of_beq hpromoted] at hword
        exact absurd hword (by decide)
      · next hidentifier =>
        refine ⟨hidentifier, hreads, fun hnames => ?_⟩
        rw [Bool.and_eq_true, Bool.and_eq_true, Bool.not_eq_true', Bool.not_eq_true'] at hpromoted
        rcases hproperty.mpr hnames with hmember | hkey
        · rw [hpromoted.1.2] at hmember
          exact absurd hmember (by simp)
        · rw [hpromoted.2] at hkey
          exact absurd hkey (by simp)
      · exact absurd hpromoted (by simp)
    · exact absurd hkind hfresh
  · rintro ⟨hkind, rfl, hnames⟩
    have hnot := fun hsome => hnames (hproperty.mp hsome)
    have hpromoted : stream.isPromoted id = true := by
      unfold isPromoted
      rw [hkind]
      simp only [hword, Bool.true_and, Bool.and_eq_true, Bool.not_eq_true']
      exact ⟨Bool.eq_false_iff.mpr fun h => hnot (.inl h),
        Bool.eq_false_iff.mpr fun h => hnot (.inr h)⟩
    refine ⟨?_, by rw [lexeme_classify]⟩
    rw [kind?_classify, if_pos hpromoted]

/-- A reserved word directly behind a keyword is a keyword, since the one before it is neither a dot
nor the beginning of an entry. -/
theorem not_identifier_behind (h : tokenize source = .ok stream) {word : String} {item : Item}
    {rest : List Item} (hword : stream.classify.IsKeyword id word)
    (hplain : ∀ behind, ¬ IsProperty (some word.toList) behind)
    (hitems : stream.classify.itemsFrom (id + 1) = item :: rest)
    (hreserved : isReserved item.text = true) : item.kind ≠ .identifier := by
  intro hkind
  obtain ⟨hle, hmeans, -, -⟩ := itemsFrom_split [] hitems
  have hlt : item.id < stream.size := by
    have hlt := lt_size_of_meaningful? hmeans
    rwa [size_classify] at hlt
  have hidentifier : stream.classify.kind? item.id = some .identifier := by
    rw [kind?_of_meaningful? hmeans, hkind]
  have hbefore : stream.kind? item.id = some .identifier := by
    rw [kind?_classify] at hidentifier
    split at hidentifier
    · exact absurd hidentifier (by simp)
    · exact hidentifier
  have hreads : stream.lexeme item.id = item.text := by
    rw [← lexeme_classify, lexeme_of_meaningful? hmeans]
  have hkeyword := (isKeyword_iff h hlt hreserved).mpr ⟨hbefore, hreads, by
    rw [lastText?_take_of_trivia hle (trivia_between hitems).2, lastText?_of_isKeyword hword]
    exact hplain _⟩
  exact absurd (hidentifier.symm.trans hkeyword.kind) (by simp)

/-- Behind an expression that begins with `import` there is a parenthesis or a dot. -/
theorem isDynamic_iff (stream : TokenStream) (id : Nat) :
    stream.classify.IsDynamic id ↔
      firstText? (stream.toPieces.drop (id + 1)) = some ['('] ∨
        firstText? (stream.toPieces.drop (id + 1)) = some ['.'] := by
  rw [(firstText?_drop stream (id + 1)).2]
  unfold IsDynamic
  cases stream.classify.itemsFrom (id + 1) with
  | nil => simp
  | cons item rest =>
    simp only [List.cons.injEq, List.head?_cons, Option.map_some, Option.some.injEq]
    have htext (c : Char) (text : String) (hc : text.toList = [c]) :
        item.text = text ↔ item.text.toList = [c] := by
      rw [← hc]
      exact String.toList_inj.symm
    rw [← htext '(' "(" rfl, ← htext '.' "." rfl]
    constructor
    · rintro ⟨next, later, ⟨rfl, -⟩, hnext⟩
      exact hnext
    · exact fun hnext => ⟨item, rest, ⟨rfl, rfl⟩, hnext⟩

end TokenStream

end ScriptLink
