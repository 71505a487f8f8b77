import ScriptLink.Proofs.Demand
import ScriptLink.Proofs.Markup.Occurrence
import ScriptLink.Proofs.Rescan

/-!
# Where the markers of a script stand

Markers are found in the text of a script, whatever the scanner takes the text for. Three slashes
are hard to write in program text, though: two of them begin a comment. So a find begins in a
comment or in a literal, and it is what a reader takes for a marker if that is a line comment of
three slashes which the find does not run out of.

* **`Context.isVerbatim_of_slashes`** — a piece in which three slashes begin is a comment or text
  of a literal, by the pieces that a step can take.
* **`HoldsAt`** — the piece that holds a place of a text; there is one, and only one.
  **`HoldsAt.exists_step`** — what the scanner had before it when it took that piece.
* **`InLineComment`** — a find inside one line comment that begins with three slashes.
* **`marker_begins_in_verbatim`** — where a find begins, and when it lies in such a comment.
-/

namespace ScriptLink

open Markup RegExp

namespace Marker

theorem suffix_tag? {fold : Char → Char} {text rest : List Char} {marker : Marker}
    (h : tag? fold text = some (marker, rest)) : rest <:+ text := by
  obtain ⟨behindName, hname, h⟩ := Option.bind_eq_some_iff.mp h
  obtain ⟨⟨path, behindPath⟩, hpath, h⟩ := Option.bind_eq_some_iff.mp h
  have hfront : behindPath <:+ text := (suffix_attribute? hpath).trans (suffix_word? hname).1
  refine List.IsSuffix.trans ?_ hfront
  dsimp only at h
  split at h
  · next named hnamed =>
    obtain rfl := Option.some.inj h
    obtain ⟨⟨name, behindAttribute⟩, hattribute, hnamed⟩ := Option.bind_eq_some_iff.mp hnamed
    obtain ⟨closed, hclose, hnamed⟩ := Option.bind_eq_some_iff.mp hnamed
    obtain ⟨-, rfl⟩ := Prod.mk.inj (Option.some.inj hnamed)
    exact (suffix_tagEnd? hclose).trans (suffix_attribute? hattribute)
  · obtain ⟨closed, hclose, hmarker⟩ := Option.map_eq_some_iff.mp h
    obtain ⟨-, rfl⟩ := Prod.mk.inj hmarker
    exact suffix_tagEnd? hclose

theorem consumes_comment? : Consumes 3 comment? := by
  intro text marker rest h
  obtain ⟨behindSlashes, hslashes, htag⟩ := Option.bind_eq_some_iff.mp h
  obtain ⟨hsuffix, hlength⟩ := suffix_word? hslashes
  have hrest : rest <:+ behindSlashes := (suffix_tag? htag).trans (suffix_blanks _)
  refine ⟨hrest.trans hsuffix, ?_⟩
  have hle := hrest.length_le
  have hthree : "///".toList.length = 3 := by decide
  omega

/-- A marker begins with three slashes. -/
theorem slashes_of_comment? {text rest : List Char} {marker : Marker}
    (h : comment? text = some (marker, rest)) : ∃ more, text = '/' :: '/' :: '/' :: more := by
  obtain ⟨behindSlashes, hslashes, -⟩ := Option.bind_eq_some_iff.mp h
  match text with
  | [] => exact absurd hslashes (by simp [word?])
  | [_] => exact absurd hslashes (by simp [word?])
  | [_, _] => exact absurd hslashes (by simp [word?])
  | first :: second :: third :: more =>
    simp only [String.reduceToList, word?, id, Option.ite_none_right_eq_some] at hslashes
    obtain ⟨rfl, rfl, rfl, -⟩ := hslashes
    exact ⟨more, rfl⟩

end Marker

/-! ## Three slashes -/

/-- A part of a text that is longer than what stands before a character has the character. -/
theorem mem_of_length_lt {α : Type} {c : α} {pre more part : List α}
    (hpart : part <+: pre ++ c :: more) (hlt : pre.length < part.length) : c ∈ part := by
  have hc : part[pre.length] = c := by
    rw [hpart.getElem hlt, List.getElem_append_right (Nat.le_refl _)]
    simp
  exact hc ▸ List.getElem_mem hlt

/-- The kinds of the pieces whose characters mean nothing to the scanner: comments, and the text of
literals. -/
def TokenKind.isVerbatim : TokenKind → Bool
  | .comment | .docComment | .string | .template => true
  | _ => false

/-- An operator has no slash behind its first character. -/
theorem Operator.no_slash_of_match? {s : List Char} {operator : String}
    (h : match? s = some operator) : '/' ∉ operator.toList.drop 1 := by
  have htable : ∀ operator ∈ table, '/' ∉ operator.toList.drop 1 := by decide
  exact htable operator (List.mem_of_find?_eq_some h)

namespace RegExp

/-- A body that goes on up to three slashes ends at the first of them, or at the second if the first
one is escaped. Either way one more follows. -/
theorem head_of_slashes {pre more body tail : List Char}
    (h : body? (pre ++ '/' :: '/' :: '/' :: more) = some (body, tail))
    (hle : pre.length ≤ body.length) : tail.head? = some '/' := by
  generalize htext : pre ++ '/' :: '/' :: '/' :: more = text at h
  fun_induction body? text generalizing pre body with
  | case1 => exact absurd h (by simp)
  | case2 => exact absurd h (by simp)
  | case3 => exact absurd h (by simp)
  | case4 c rest hbreak ih =>
    obtain ⟨⟨later, _⟩, hlater, heq⟩ := Option.map_eq_some_iff.mp h
    obtain ⟨rfl, rfl⟩ := Prod.mk.inj heq
    rcases pre with _ | ⟨_, _ | ⟨_, pre⟩⟩
    · exact absurd htext (by simp)
    · -- the first slash is escaped, and the second one closes
      obtain ⟨-, htext⟩ := List.cons.inj htext
      obtain ⟨-, rfl⟩ := List.cons.inj htext
      obtain ⟨-, rfl⟩ := Prod.mk.inj (Option.some.inj hlater)
      rfl
    · simp only [List.cons_append, List.cons.injEq] at htext
      exact ih (by simpa using hle) htext.2.2 hlater
  | case5 => exact absurd h (by simp)
  | case6 c rest _ _ _ hslash =>
    obtain ⟨rfl, rfl⟩ := Prod.mk.inj (Option.some.inj h)
    obtain rfl : pre = [] := List.length_eq_zero_iff.mp (Nat.le_zero.mp hle)
    obtain ⟨-, rfl⟩ := List.cons.inj htext
    rfl
  | case7 c rest _ _ _ hslash ih =>
    obtain ⟨⟨later, _⟩, hlater, heq⟩ := Option.map_eq_some_iff.mp h
    obtain ⟨rfl, rfl⟩ := Prod.mk.inj heq
    cases pre with
    | nil =>
      obtain ⟨rfl, -⟩ := List.cons.inj htext
      exact absurd rfl hslash
    | cons _ pre =>
      obtain ⟨-, htext⟩ := List.cons.inj htext
      exact ih (by simpa using hle) htext hlater

/-- Three slashes do not begin in a regular expression behind its first character. -/
theorem length_lt_of_slashes {pre more part : List Char}
    (h : literal? ('/' :: (pre ++ '/' :: '/' :: '/' :: more)) = some ('/' :: part)) :
    part.length ≤ pre.length := by
  unfold literal? at h
  dsimp only at h
  split at h
  · exact absurd h (by simp)
  · exact absurd h (by simp)
  · next body tail _ hbody =>
    split at h
    · next hends =>
      obtain ⟨-, rfl⟩ := List.cons.inj (Option.some.inj h)
      refine Nat.le_of_not_lt fun hlt => ?_
      have hsplit := body?_eq hbody
      have hbehind : body.length < pre.length := by
        -- else another slash follows the closing one, and no expression ends there
        refine Nat.lt_of_not_le fun hle => ?_
        obtain ⟨later, rfl⟩ := List.head?_eq_some_iff.mp (head_of_slashes hbody hle)
        exact absurd hends (by simp [isFlag, endsExpression, isLineBreak])
      -- so the slash would be one of the flags
      obtain ⟨flag, hpre⟩ : ∃ flag, pre = body ++ '/' :: flag := by
        rcases List.append_eq_append_iff.mp hsplit with ⟨more', rfl, -⟩ | ⟨more', rfl, hmore⟩
        · rw [List.length_append] at hbehind
          omega
        · cases more' with
          | nil => exact absurd hbehind (by simp)
          | cons c flag =>
            obtain ⟨rfl, -⟩ := List.cons.inj hmore
            exact ⟨flag, rfl⟩
      subst hpre
      have htail : flag ++ '/' :: '/' :: '/' :: more = tail := by
        simpa [List.append_assoc] using hsplit
      simp only [List.length_append, List.length_cons] at hlt
      have hmem : '/' ∈ tail.takeWhile isFlag :=
        mem_of_length_lt (by rw [htail]; exact List.takeWhile_prefix isFlag) (by omega)
      exact absurd (List.all_eq_true.mp List.all_takeWhile '/' hmem) (by decide)
    · exact absurd h (by simp)

end RegExp

/-- What stands in front of a text is part of its first line if it has no line break. -/
theorem Comment.prefix_line_iff {part s : List Char} (h : part <+: s) :
    part <+: line s ↔ Unbroken part := by
  obtain ⟨rest, rfl⟩ := h
  rw [line_eq_takeWhile]
  constructor
  · intro hbegins c hc
    simpa using List.all_eq_true.mp List.all_takeWhile c (hbegins.subset hc)
  · intro hpart
    rw [List.takeWhile_append_of_pos fun c hc => by simp [hpart c hc]]
    exact List.prefix_append _ _

namespace Context

variable {context : Context} {position : Nat} {c : Char} {rest : List Char} {step : Step}

/-- A piece of program text in which three slashes begin is a comment or text of a literal. -/
theorem isVerbatim_of_codeStep {pre more : List Char}
    (h : context.codeStep position c rest = .ok step)
    (htext : c :: rest = pre ++ '/' :: '/' :: '/' :: more)
    (hle : pre.length ≤ step.tail.length) : step.kind.isVerbatim = true := by
  cases pre with
  | nil =>
    -- a second slash makes the piece a comment
    obtain ⟨rfl, rfl⟩ := List.cons.inj htext
    obtain rfl := Except.ok.inj h
    rfl
  | cons first pre =>
    obtain ⟨-, rfl⟩ := List.cons.inj htext
    have hmem : '/' ∈ step.tail := mem_of_length_lt (prefix_of_codeStep h) hle
    cases taken_of_codeStep h with
    | template | string | lineComment => rfl
    | blockComment _ _ hkind => rcases hkind with rfl | rfl <;> rfl
    | regexp _ hliteral =>
      obtain ⟨part, rfl⟩ := cons_of_literal? hliteral
      have hpart := length_lt_of_slashes hliteral
      simp only [plain, List.drop_one, List.tail_cons, List.length_cons] at hle
      omega
    -- the other pieces have no slash behind their first character
    | openBrace | closeBrace | bracket | delimiter => exact absurd hmem List.not_mem_nil
    | number _ hnumber =>
      have hnumeral := Number.numeral_of_literal? hnumber '/' (List.mem_of_mem_drop hmem)
      exact absurd hnumeral (by decide)
    | name => exact absurd (List.all_eq_true.mp List.all_takeWhile '/' hmem) (by decide)
    | blanks => exact absurd (List.all_eq_true.mp List.all_takeWhile '/' hmem) (by decide)
    | operator _ hoperator => exact absurd hmem (Operator.no_slash_of_match? hoperator)

/-- **A piece in which three slashes begin is a comment or text of a literal.** -/
theorem isVerbatim_of_slashes {pre more : List Char} (h : context.step position c rest = .ok step)
    (htext : c :: rest = pre ++ '/' :: '/' :: '/' :: more)
    (hle : pre.length ≤ step.tail.length) : step.kind.isVerbatim = true := by
  have hpart : c :: step.tail <+: pre ++ '/' :: '/' :: '/' :: more :=
    htext ▸ (List.prefix_cons_inj c).mpr (prefix_of_step h)
  unfold Context.step at h
  split at h
  · exact isVerbatim_of_codeStep h htext hle
  · rcases templateStep_cases h with ⟨later, heq, rfl⟩ | ⟨tail, closes, -, rfl⟩
    · obtain ⟨rfl, -⟩ := List.cons.inj heq
      have hmem : '/' ∈ ['$', '\x7b'] := mem_of_length_lt hpart (Nat.lt_succ_of_le hle)
      exact absurd hmem (by decide)
    · rfl

/-- A comment that begins with three slashes goes on to the end of the line. -/
theorem text_of_comment (h : context.step position c rest = .ok step) (hkind : step.kind = .comment)
    (hslashes : ['/', '/'] <+: c :: step.tail) : c :: step.tail = Comment.line (c :: rest) := by
  have htail := prefix_of_step h
  obtain ⟨rfl, hsecond⟩ := List.cons_prefix_cons.mp hslashes
  unfold Context.step at h
  split at h
  · rw [codeStep_eq, show Lead.of '/' = .slash by decide] at h
    obtain ⟨more, rfl⟩ : ∃ more, rest = '/' :: more := by
      obtain ⟨more, hmore⟩ := hsecond.trans htail
      exact ⟨more, hmore.symm⟩
    obtain rfl := Except.ok.inj h
    rfl
  · rcases templateStep_cases h with ⟨later, -, rfl⟩ | ⟨tail, closes, -, rfl⟩ <;>
      exact absurd hkind (by simp)

/-- A part of the text that begins in such a comment lies in it as far as the line goes. -/
theorem reaches_iff_unbroken {pre part right : List Char}
    (h : context.step position c rest = .ok step) (hkind : step.kind = .comment)
    (hslashes : ['/', '/'] <+: c :: step.tail) (htext : c :: rest = pre ++ (part ++ right))
    (hinside : pre.length ≤ step.tail.length) :
    pre.length + part.length ≤ step.tail.length + 1 ↔ Unbroken part := by
  have hcomment := text_of_comment h hkind hslashes
  have hline : c :: step.tail <+: c :: rest := hcomment ▸ Comment.prefix_line _
  have hpre : pre <+: c :: rest := ⟨_, htext.symm⟩
  have hboth : pre ++ part <+: c :: rest := ⟨right, (List.append_assoc _ _ _).trans htext.symm⟩
  have hpreLine : pre <+: c :: step.tail :=
    List.prefix_of_prefix_length_le hpre hline (Nat.le_succ_of_le hinside)
  rw [hcomment, Comment.prefix_line_iff hpre] at hpreLine
  have hiff := Comment.prefix_line_iff hboth
  rw [← hcomment] at hiff
  constructor
  · intro hle
    have hboth : pre ++ part <+: c :: step.tail :=
      List.prefix_of_prefix_length_le hboth hline (by simpa using hle)
    exact (hiff.mp hboth).sublist fun d hd => List.mem_append_right _ hd
  · intro hpart
    have hall : Unbroken (pre ++ part) :=
      fun d hd => (List.mem_append.mp hd).elim (hpreLine d) (hpart d)
    have hle := (hiff.mpr hall).length_le
    simpa using hle

end Context

/-! ## The piece at a place -/

/-- The pieces have one that holds the character at the given place, and `before` and `after` are
the pieces around it. -/
structure HoldsAt (pieces : List Piece) (place : Nat) (before : List Piece) (piece : Piece)
    (after : List Piece) : Prop where
  split : pieces = before ++ piece :: after
  from_start : (Piece.texts before).length ≤ place
  before_stop : place < (Piece.texts before).length + piece.text.length

namespace HoldsAt

variable {pieces before after before' after' : List Piece} {piece piece' : Piece} {place : Nat}

/-- Every place of a text is in a piece. -/
theorem exists_of_lt (hlt : place < (Piece.texts pieces).length) :
    ∃ before piece after, HoldsAt pieces place before piece after := by
  induction pieces generalizing place with
  | nil => exact absurd hlt (Nat.not_lt_zero _)
  | cons first rest ih =>
    rw [Piece.texts_cons, List.length_append] at hlt
    by_cases hfirst : place < first.text.length
    · exact ⟨[], first, rest, rfl, Nat.zero_le _, by simpa using hfirst⟩
    · have hrest : place - first.text.length < (Piece.texts rest).length := by omega
      obtain ⟨before, piece, after, rfl, hstart, hstop⟩ := ih hrest
      refine ⟨first :: before, piece, after, rfl, ?_, ?_⟩ <;>
        rw [Piece.texts_cons, List.length_append] <;> omega

/-- And in no other one. -/
theorem unique (h : HoldsAt pieces place before piece after)
    (h' : HoldsAt pieces place before' piece' after') : before = before' ∧ piece = piece' := by
  induction before generalizing pieces before' place with
  | nil =>
    obtain ⟨rfl, -, hstop⟩ := h
    obtain ⟨hsplit, hstart, -⟩ := h'
    cases before' with
    | nil => exact ⟨rfl, (List.cons.inj hsplit).1⟩
    | cons first rest =>
      obtain ⟨rfl, -⟩ := List.cons.inj hsplit
      simp only [Piece.texts_cons, Piece.texts_nil, List.length_append, List.length_nil] at *
      omega
  | cons first rest ih =>
    obtain ⟨rfl, hstart, hstop⟩ := h
    obtain ⟨hsplit, hstart', hstop'⟩ := h'
    cases before' with
    | nil =>
      obtain ⟨rfl, -⟩ := List.cons.inj hsplit
      simp only [Piece.texts_cons, Piece.texts_nil, List.length_append, List.length_nil] at *
      omega
    | cons first' rest' =>
      obtain ⟨rfl, hrest⟩ := List.cons.inj hsplit
      simp only [Piece.texts_cons, List.length_append] at *
      -- the first piece lies before the place, so both splits go on behind it
      have hholds : HoldsAt (rest ++ piece :: after) (place - first.text.length) rest piece after :=
        ⟨rfl, by omega, by omega⟩
      have hholds' : HoldsAt (rest ++ piece :: after) (place - first.text.length) rest' piece'
        after' := ⟨hrest, by omega, by omega⟩
      obtain ⟨rfl, rfl⟩ := ih hholds hholds'
      exact ⟨rfl, rfl⟩

end HoldsAt

/-- The step that took a piece. -/
theorem Scanned.step_of_split {context : Context} {before after : List Piece} {piece : Piece}
    (h : Scanned context (before ++ piece :: after)) :
    ∃ taken position c tail next, piece.text = c :: tail ∧
      Context.step taken position c (tail ++ Piece.texts after) = .ok ⟨piece.kind, tail, next⟩ := by
  induction before generalizing context with
  | nil =>
    cases h with
    | cons hstep hrest => exact ⟨_, _, _, _, _, rfl, hstep⟩
  | cons first rest ih =>
    cases h with
    | cons hstep hrest => exact ih hrest

/-! ## Markers -/

/-- The find lies inside a single line comment that begins with three slashes. -/
def InLineComment (pieces : List Piece) (found : Occurrence Marker) : Prop :=
  ∃ before piece after, pieces = before ++ piece :: after ∧ piece.kind = .comment ∧
    ['/', '/', '/'] <+: piece.text ∧ (Piece.texts before).length ≤ found.start ∧
    found.stop ≤ (Piece.texts before).length + piece.text.length

variable {source : String} {stream : TokenStream} {found : Occurrence Marker}

/-- What a find is: a part of the text that begins with three slashes. -/
theorem Marker.split_of_mem (hfound : found ∈ occurrences Marker.comment? source.toList) :
    ∃ before after more, source.toList = before ++ found.textIn source.toList ++ after ∧
      found.textIn source.toList = '/' :: '/' :: '/' :: more ∧ found.start = before.length ∧
      found.stop = found.start + (found.textIn source.toList).length := by
  obtain ⟨before, part, after, htext, hleast, hstart, hstop, hpart⟩ :=
    place_of_mem_occurrencesFrom Marker.consumes_comment? hfound
  rw [Nat.zero_add] at hstart
  have hfoundText : found.textIn source.toList = part := by
    unfold Occurrence.textIn
    rw [htext, hstart, List.append_assoc, List.drop_left, hstop, hstart, Nat.add_sub_cancel_left,
      List.take_left]
  obtain ⟨later, hlater⟩ := Marker.slashes_of_comment? hpart
  rw [hfoundText]
  match part with
  | first :: second :: third :: more =>
    simp only [List.cons_append, List.cons.injEq] at hlater
    obtain ⟨rfl, rfl, rfl, -⟩ := hlater
    exact ⟨before, after, more, htext, rfl, hstart, hstop⟩

/-- **Where a part of a script begins**: in a piece, behind the characters `pre`, and the scanner had
the whole part before it when it took the piece. -/
theorem HoldsAt.exists_step (htokenize : tokenize source = .ok stream) {left part right : List Char}
    (htext : source.toList = left ++ (part ++ right)) (hpart : part ≠ []) :
    ∃ before piece after pre, HoldsAt stream.toPieces left.length before piece after ∧
      left = Piece.texts before ++ pre ∧
      ∃ context position c tail next, piece.text = c :: tail ∧ pre.length ≤ tail.length ∧
        c :: (tail ++ Piece.texts after) = pre ++ (part ++ right) ∧
        Context.step context position c (tail ++ Piece.texts after) =
          .ok ⟨piece.kind, tail, next⟩ := by
  have hpieces := toPieces_of_tokenize htokenize
  have hscanned := scanned_of_scan hpieces
  have htexts : Piece.texts stream.toPieces = source.toList := (pieces_eq hpieces).1
  have hlt : left.length < (Piece.texts stream.toPieces).length := by
    have hpos := List.length_pos_iff.mpr hpart
    rw [htexts, htext, List.length_append, List.length_append]
    omega
  obtain ⟨before, piece, after, hholds⟩ := HoldsAt.exists_of_lt hlt
  obtain ⟨hsplit, hbefore, hafter⟩ := id hholds
  rw [hsplit] at hscanned htexts
  obtain ⟨context, position, c, tail, next, hpiece, hstep⟩ := hscanned.step_of_split
  obtain ⟨pre, rfl⟩ : Piece.texts before <+: left := by
    have hbeforeText : Piece.texts before <+: source.toList :=
      ⟨_, (Piece.texts_append before _).symm.trans htexts⟩
    have hleftText : left <+: source.toList := ⟨_, htext.symm⟩
    exact List.prefix_of_prefix_length_le hbeforeText hleftText hbefore
  refine ⟨before, piece, after, pre, hholds, rfl, context, position, c, tail, next, hpiece, ?_, ?_,
    hstep⟩
  · rw [hpiece, List.length_append, List.length_cons] at hafter
    omega
  · have hboth : Piece.texts before ++ (c :: (tail ++ Piece.texts after)) =
        Piece.texts before ++ (pre ++ (part ++ right)) := by
      simpa [hpiece] using htexts.trans htext
    exact List.append_cancel_left hboth

/-- **A find begins in a comment or in the text of a literal**, never in program text. It lies in
one line comment of three slashes exactly if it begins in one and has no line break. -/
theorem marker_begins_in_verbatim (htokenize : tokenize source = .ok stream)
    (hfound : found ∈ occurrences Marker.comment? source.toList) :
    ∃ before piece after, HoldsAt stream.toPieces found.start before piece after ∧
      piece.kind.isVerbatim = true ∧
      (InLineComment stream.toPieces found ↔ piece.kind = .comment ∧
        ['/', '/', '/'] <+: piece.text ∧ Unbroken (found.textIn source.toList)) := by
  obtain ⟨left, right, more, htext, hslashes, hstart, hstop⟩ := Marker.split_of_mem hfound
  obtain ⟨before, piece, after, pre, hholds, rfl, context, position, c, tail, next, hpiece, hinside,
    hrest, hstep⟩ := HoldsAt.exists_step htokenize (htext.trans (List.append_assoc _ _ _))
      (by rw [hslashes]; exact List.cons_ne_nil _ _)
  rw [← hstart] at hholds
  rw [List.length_append] at hstart
  have hline (hkind : piece.kind = .comment) (hbegins : ['/', '/', '/'] <+: piece.text) :
      found.stop ≤ (Piece.texts before).length + piece.text.length ↔
        Unbroken (found.textIn source.toList) := by
    rw [hpiece] at hbegins
    have hslashes := (List.prefix_append ['/', '/'] ['/']).trans hbegins
    rw [← Context.reaches_iff_unbroken hstep hkind hslashes hrest hinside, hpiece, hstop, hstart]
    show _ ≤ _ + (tail.length + 1) ↔ _ ≤ tail.length + 1
    omega
  refine ⟨before, piece, after, hholds, ?_, ?_, ?_⟩
  · have hthree : c :: (tail ++ Piece.texts after) =
        pre ++ '/' :: '/' :: '/' :: (more ++ right) := by
      rw [hrest, hslashes]
      rfl
    exact Context.isVerbatim_of_slashes hstep hthree hinside
  · -- the comment that holds the find holds its first slash
    rintro ⟨before', piece', after', hsplit', hkind, hbegins, hfrom, hto⟩
    have hfirst : HoldsAt stream.toPieces found.start before' piece' after' := by
      refine ⟨hsplit', hfrom, ?_⟩
      rw [hstop, hslashes, List.length_cons] at hto
      omega
    obtain ⟨rfl, rfl⟩ := hholds.unique hfirst
    exact ⟨hkind, hbegins, (hline hkind hbegins).mp hto⟩
  · rintro ⟨hkind, hbegins, hunbroken⟩
    have hstop := (hline hkind hbegins).mpr hunbroken
    exact ⟨before, piece, after, hholds.split, hkind, hbegins, hholds.from_start, hstop⟩

/-- A marker behind three slashes, on a line of its own. -/
theorem marker_in_line_comment :
    let source := "/// <amd-dependency path=\x22x.js\x22 />\nrun()"
    ∃ stream found, tokenize source = .ok stream ∧
      found ∈ occurrences Marker.comment? source.toList ∧ found.value = ⟨"x.js", none⟩ ∧
      InLineComment stream.toPieces found := by
  intro source
  have hread : (tokenize source).toOption.map (·.toPieces.head?) =
      some (some ⟨.comment, "/// <amd-dependency path=\x22x.js\x22 />".toList⟩) := by decide +kernel
  have hfound : (occurrences Marker.comment? source.toList).head?.map
      (fun found => (found.start, found.stop, found.value)) = some (0, 34, ⟨"x.js", none⟩) := by
    decide +kernel
  obtain ⟨stream, hstream, hhead⟩ := Option.map_eq_some_iff.mp hread
  obtain ⟨found, hmem, heq⟩ := Option.map_eq_some_iff.mp hfound
  obtain ⟨hstart, hplace⟩ := Prod.mk.inj heq
  obtain ⟨hstop, hvalue⟩ := Prod.mk.inj hplace
  have htokenize := eq_ok_of_toOption hstream
  have hmem := List.mem_of_head? hmem
  obtain ⟨before, piece, after, ⟨hsplit, hfrom, -⟩, -, hiff⟩ :=
    marker_begins_in_verbatim htokenize hmem
  -- nothing stands in front of the comment
  obtain rfl : before = [] := by
    cases before with
    | nil => rfl
    | cons first rest =>
      rw [hsplit] at hhead
      obtain rfl := Option.some.inj hhead
      rw [hstart] at hfrom
      exact absurd hfrom (by simp)
  rw [hsplit] at hhead
  obtain rfl := Option.some.inj hhead
  refine ⟨stream, found, htokenize, hmem, hvalue, hiff.mpr ⟨rfl, ⟨_, rfl⟩, ?_⟩⟩
  unfold Occurrence.textIn Unbroken
  rw [hstart, hstop]
  decide +kernel

/-- **A string can hold a marker**: it is found there, and no comment is in the script. -/
theorem marker_in_string :
    let source := "var s = \x27/// <amd-dependency path=\x22x.js\x22 />\x27;"
    ∃ stream found, tokenize source = .ok stream ∧
      found ∈ occurrences Marker.comment? source.toList ∧ found.value = ⟨"x.js", none⟩ ∧
      ¬ InLineComment stream.toPieces found := by
  intro source
  have hread : (tokenize source).toOption.map
      (fun stream => stream.toPieces.all (·.kind != .comment)) = some true := by decide +kernel
  have hfound : (occurrences Marker.comment? source.toList).head?.map (·.value) =
      some ⟨"x.js", none⟩ := by decide +kernel
  obtain ⟨stream, hstream, hkinds⟩ := Option.map_eq_some_iff.mp hread
  obtain ⟨found, hmem, hvalue⟩ := Option.map_eq_some_iff.mp hfound
  refine ⟨stream, found, eq_ok_of_toOption hstream, List.mem_of_head? hmem, hvalue, ?_⟩
  rintro ⟨before, piece, after, hsplit, hkind, -⟩
  have hpiece := List.all_eq_true.mp hkinds piece (by rw [hsplit]; simp)
  exact absurd hkind (by simpa using hpiece)

end ScriptLink
