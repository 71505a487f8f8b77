import ScriptLink.Proofs.Literal
import ScriptLink.Proofs.TokenStream

/-!
# Nothing is lost

The scanner takes one piece after the other off a text, and every piece stands at the front of what
is left. So the pieces make up the text, their spans tile its bytes, and a stream of tokens can
write the text again.

* **`Context.prefix_of_step`** — what a step takes is a prefix of the text. One case per branch
  of the scanner, and each is the law of a matcher.
* **`Context.scan_induction`** — the two ways a scan that succeeds goes on: it stops at the end of
  the text, or takes a step. `Context.scan_pieces`: the pieces make up the text, and none is empty.
* **`Tiles`** — spans that follow each other from a position to the end of the text.
  `locate_tiles`: the spans of pieces that make up a text tile it.
* **`lexeme_locate`** — the text at the span of a piece is the text of the piece.
* **`lossless_tokenization`** — the law.
-/

namespace ScriptLink

theorem eq_ok_of_toOption {ε α : Type} {found : Except ε α} {value : α}
    (h : found.toOption = some value) : found = .ok value := by
  cases found with
  | error error => exact absurd h (by simp [Except.toOption])
  | ok other => exact congrArg Except.ok (Option.some.inj h)

theorem eq_error_of_casesOn {ε α : Type} {found : Except ε α} {error : ε}
    (h : Except.casesOn (motive := fun _ => Option ε) found some (fun _ => none) = some error) :
    found = .error error := by
  cases found with
  | error other => exact congrArg Except.error (Option.some.inj h)
  | ok value => exact absurd h (by simp)

theorem exists_of_map_eq_ok {ε α β : Type} {view : α → β} {found : Except ε α} {value : β}
    (h : found.map view = .ok value) : ∃ inner, found = .ok inner ∧ view inner = value := by
  cases found with
  | error error => exact absurd h (by simp [Except.map])
  | ok inner => exact ⟨inner, rfl, Except.ok.inj h⟩

theorem error_of_map_eq_error {ε α β : Type} {view : α → β} {found : Except ε α} {error : ε}
    (h : found.map view = .error error) : found = .error error := by
  cases found with
  | error other => exact congrArg Except.error (Except.error.inj h)
  | ok inner => exact absurd h (by simp [Except.map])

namespace Context

variable {context : Context} {position opened : Nat} {c : Char} {rest : List Char} {step : Step}

/-! ## One step -/

/-- The first character is taken in any case, so what counts is the match without it. -/
theorem prefix_drop_one {text : List Char} (h : text <+: c :: rest) : text.drop 1 <+: rest := by
  cases text with
  | nil => exact List.nil_prefix
  | cons first later => exact (List.cons_prefix_cons.mp h).2

theorem prefix_operatorStep_tail (context : Context) (c : Char) (rest : List Char) :
    (context.operatorStep c rest).tail <+: rest := by
  unfold operatorStep
  split
  · next operator hoperator => exact prefix_drop_one (Operator.prefix_of_match? hoperator)
  · exact List.nil_prefix

theorem prefix_of_slashStep (h : context.slashStep position rest = .ok step) :
    step.tail <+: rest := by
  unfold slashStep at h
  split at h
  · obtain rfl := Except.ok.inj h
    exact Comment.prefix_line _
  · dsimp only at h
    split at h
    · next text htext =>
      obtain rfl := Except.ok.inj h
      exact (List.prefix_cons_inj '*').mpr (Comment.prefix_of_block? htext)
    · exact absurd h (by simp)
  · split at h
    · next literal hliteral =>
      obtain rfl := Except.ok.inj h
      exact prefix_drop_one (RegExp.prefix_of_literal? hliteral)
    · obtain rfl := Except.ok.inj h
      exact prefix_operatorStep_tail context '/' rest

theorem prefix_of_codeStep :
    context.codeStep position c rest = .ok step → step.tail <+: rest := by
  fun_cases codeStep context position c rest with
  | case4 _ _ _ _ segment hsegment =>
    intro h
    obtain rfl := Except.ok.inj h
    exact Template.prefix_of_segment? hsegment
  | case6 _ _ _ _ _ body hbody =>
    intro h
    obtain rfl := Except.ok.inj h
    exact Quoted.prefix_of_body? hbody
  | case8 => exact prefix_of_slashStep
  | case9 _ _ _ _ _ _ _ form text hliteral =>
    intro h
    obtain rfl := Except.ok.inj h
    exact prefix_drop_one (Number.prefix_of_literal? hliteral)
  | case11 =>
    intro h
    obtain rfl := Except.ok.inj h
    exact List.takeWhile_prefix _
  | case12 =>
    intro h
    obtain rfl := Except.ok.inj h
    exact List.takeWhile_prefix _
  | case14 =>
    intro h
    obtain rfl := Except.ok.inj h
    exact prefix_operatorStep_tail context c rest
  -- a literal without its end is an error
  | case5 => exact fun h => absurd h (by simp)
  | case7 => exact fun h => absurd h (by simp)
  -- and everything else is one character
  | _ =>
    intro h
    obtain rfl := Except.ok.inj h
    exact List.nil_prefix

theorem prefix_of_templateStep (h : context.templateStep opened c rest = .ok step) :
    step.tail <+: rest := by
  unfold templateStep at h
  split at h
  · exact absurd h (by simp)
  · next closes hsegment =>
    obtain rfl := Except.ok.inj h
    exact prefix_drop_one (Template.opens_of_empty hsegment)
  · next text closes _ hsegment =>
    obtain rfl := Except.ok.inj h
    exact prefix_drop_one (Template.prefix_of_segment? hsegment)

/-- **What a step takes stands at the front of the text.** -/
theorem prefix_of_step (h : context.step position c rest = .ok step) : step.tail <+: rest := by
  unfold Context.step at h
  split at h
  · exact prefix_of_codeStep h
  · exact prefix_of_templateStep h

/-! ## The scan -/

/-- From a step on the scan finds its piece, and what is found behind it. -/
theorem scan_of_step {next : Context} {kind : TokenKind} {tail : List Char}
    (h : context.step position c (tail ++ rest) = .ok ⟨kind, tail, next⟩) :
    context.scan position (c :: (tail ++ rest)) =
      (next.scan (position + byteLength (c :: tail)) rest).map (⟨kind, c :: tail⟩ :: ·) := by
  rw [Context.scan, h]
  dsimp only
  rw [List.drop_left]
  cases next.scan (position + byteLength (c :: tail)) rest with
  | error error => rfl
  | ok later => rfl

/-- A script may end only in the context it starts in: in code, with nothing open. -/
theorem eq_start_of_finish (h : context.finish = .ok ()) : context = .start := by
  obtain ⟨mode, stack⟩ := context
  cases mode with
  | template opened => exact absurd h (by simp [finish])
  | code =>
    cases stack with
    | nil => rfl
    | cons top outer => exact absurd h (by simp [finish])

theorem scan_nil (position : Nat) : Context.start.scan position [] = .ok [] := by
  rw [Context.scan]
  rfl

theorem scan_cons {later : List Piece} (hstep : context.step position c rest = .ok step)
    (hlater : step.next.scan (position + byteLength (c :: step.tail))
      (rest.drop step.tail.length) = .ok later) :
    context.scan position (c :: rest) = .ok (⟨step.kind, c :: step.tail⟩ :: later) := by
  rw [Context.scan, hstep]
  dsimp only
  rw [hlater]

/-- **Induction along a scan that succeeds.** It stops at the end of the text with nothing open, and
until then it takes a step and goes on behind it. -/
@[elab_as_elim]
theorem scan_induction
    {motive : ∀ (context : Context) (position : Nat) (text : List Char) (found : List Piece),
      context.scan position text = .ok found → Prop}
    (stop : ∀ position, motive .start position [] [] (scan_nil position))
    (step : ∀ {context : Context} {position : Nat} {c : Char} {rest : List Char} {step : Step}
      {later : List Piece} (hstep : context.step position c rest = .ok step)
      (hlater : step.next.scan (position + byteLength (c :: step.tail))
        (rest.drop step.tail.length) = .ok later),
      motive step.next (position + byteLength (c :: step.tail)) (rest.drop step.tail.length)
        later hlater →
      motive context position (c :: rest) (⟨step.kind, c :: step.tail⟩ :: later)
        (scan_cons hstep hlater))
    {context : Context} {position : Nat} {text : List Char} {found : List Piece}
    (h : context.scan position text = .ok found) : motive context position text found h := by
  fun_induction Context.scan context position text generalizing found
  case case1 context position =>
    have hscan := h
    rw [Context.scan] at hscan
    obtain ⟨_, hfinish, rfl⟩ := exists_of_map_eq_ok hscan
    obtain rfl := eq_start_of_finish hfinish
    exact stop position
  case case2 context position c rest error herror =>
    rw [Context.scan, herror] at h
    exact absurd h (by simp)
  case case3 hstep piece error herror _ =>
    have hscan := h
    rw [Context.scan, hstep] at hscan
    dsimp only at hscan
    rw [herror] at hscan
    exact absurd hscan (by simp)
  case case4 hstep piece later hlater ih =>
    obtain rfl := Except.ok.inj ((scan_cons hstep hlater).symm.trans h)
    exact step hstep hlater (ih hlater)

/-- **The pieces make up the text**, and none of them is empty. -/
theorem scan_pieces {text : List Char} {found : List Piece}
    (h : context.scan position text = .ok found) :
    found.flatMap Piece.text = text ∧ ∀ piece ∈ found, piece.text ≠ [] := by
  induction h using scan_induction with
  | stop position => exact ⟨rfl, fun _ hmem => absurd hmem List.not_mem_nil⟩
  | @step context position c rest step later hstep hlater ih =>
    obtain ⟨htext, hnonempty⟩ := ih
    have hsplit := List.prefix_iff_eq_append.mp (prefix_of_step hstep)
    constructor
    · show c :: step.tail ++ later.flatMap Piece.text = c :: rest
      rw [htext, List.cons_append, hsplit]
    · intro other hmem
      rcases List.mem_cons.mp hmem with rfl | hmem
      · exact List.cons_ne_nil _ _
      · exact hnonempty other hmem

end Context

theorem pieces_eq {source : String} {found : List Piece} (h : pieces source = .ok found) :
    found.flatMap Piece.text = source.toList ∧ ∀ piece ∈ found, piece.text ≠ [] :=
  Context.scan_pieces h

/-! ## Spans -/

/-- The spans lie side by side from byte `start` to the end of the text. None is empty, and each
begins and ends between two characters. -/
inductive Tiles (source : String) : Nat → List Span → Prop where
  | nil : Tiles source source.utf8ByteSize []
  | cons {start stop : Nat} {later : List Span} (hlt : start < stop)
      (hstart : (String.Pos.Raw.mk start).IsValid source)
      (hstop : (String.Pos.Raw.mk stop).IsValid source) (hlater : Tiles source stop later) :
      Tiles source start (⟨start, stop⟩ :: later)

variable {source : String} {before after : List Char} {found : List Piece}

/-- Behind some of the characters of a text lies the boundary of a character. -/
theorem isValid_byteLength (h : source.toList = before ++ after) :
    (String.Pos.Raw.mk (byteLength before)).IsValid source := by
  refine String.Pos.Raw.isValid_iff_exists_append.mpr
    ⟨String.ofList before, String.ofList after, ?_, ?_⟩
  · rw [← String.ofList_append, ← h, String.ofList_toList]
  · rw [← utf8ByteSize_ofList]
    rfl

/-- **Pieces that make up the rest of a text tile it**, by induction on the pieces. -/
theorem locate_tiles (h : source.toList = before ++ found.flatMap Piece.text)
    (hnonempty : ∀ piece ∈ found, piece.text ≠ []) :
    Tiles source (byteLength before) ((Piece.locate (byteLength before) found).map Mark.span) := by
  induction found generalizing before with
  | nil =>
    have hend : byteLength before = source.utf8ByteSize := by
      rw [← byteLength_toList, h, List.flatMap_nil, List.append_nil]
    rw [hend]
    exact .nil
  | cons piece rest ih =>
    have hsplit : source.toList = before ++ piece.text ++ rest.flatMap Piece.text := by
      rw [h, List.flatMap_cons, List.append_assoc]
    have hpositive : 0 < byteLength piece.text :=
      Nat.pos_of_ne_zero fun hzero =>
        hnonempty piece List.mem_cons_self (byteLength_eq_zero_iff.mp hzero)
    have hlater := ih hsplit fun other hmem => hnonempty other (List.mem_cons_of_mem _ hmem)
    rw [byteLength_append] at hlater
    refine .cons (by omega) (isValid_byteLength h) ?_ hlater
    rw [← byteLength_append]
    exact isValid_byteLength hsplit

/-- The text at the span of a piece is the text of the piece. -/
theorem slice?_of_split {part : List Char} (h : source.toList = before ++ part ++ after) :
    slice? source (byteLength before) (byteLength before + byteLength part) =
      some (String.ofList part) := by
  refine slice?_eq_some_iff.mpr ⟨String.ofList before, String.ofList after, ?_, ?_, ?_⟩
  · rw [← String.ofList_append, ← String.ofList_append, ← h, String.ofList_toList]
  · exact (utf8ByteSize_ofList before).symm
  · rw [utf8ByteSize_ofList, utf8ByteSize_ofList]

/-- What a mark says of the text: the slice at its span. -/
def Mark.lexeme (source : String) (mark : Mark) : String :=
  (slice? source mark.span.start mark.span.stop).getD ""

/-- A mark as the piece it was made for. -/
def Mark.toPiece (source : String) (mark : Mark) : Piece :=
  ⟨mark.kind, (mark.lexeme source).toList⟩

/-- The marks of pieces that make up the rest of a text give the pieces back. -/
theorem toPiece_locate (h : source.toList = before ++ found.flatMap Piece.text) :
    (Piece.locate (byteLength before) found).map (Mark.toPiece source) = found := by
  induction found generalizing before with
  | nil => rfl
  | cons piece rest ih =>
    have hsplit : source.toList = before ++ piece.text ++ rest.flatMap Piece.text := by
      rw [h, List.flatMap_cons, List.append_assoc]
    have hlater := ih hsplit
    rw [byteLength_append] at hlater
    show (⟨piece.kind, (Option.getD (slice? source _
      (byteLength before + byteLength piece.text)) "").toList⟩ : Piece) :: _ = _
    rw [slice?_of_split hsplit, hlater, Option.getD_some, String.toList_ofList]

theorem lexeme_locate (h : source.toList = before ++ found.flatMap Piece.text) :
    (Piece.locate (byteLength before) found).map (Mark.lexeme source) =
      found.map fun piece => String.ofList piece.text := by
  have htexts := congrArg (List.map fun piece => String.ofList piece.text) (toPiece_locate h)
  rw [List.map_map] at htexts
  rw [← htexts]
  refine List.map_congr_left fun mark _ => ?_
  show mark.lexeme source = String.ofList (mark.lexeme source).toList
  rw [String.ofList_toList]

theorem join_texts (found : List Piece) :
    String.join (found.map fun piece => String.ofList piece.text) =
      String.ofList (found.flatMap Piece.text) := by
  induction found with
  | nil => rfl
  | cons piece rest ih =>
    rw [List.map_cons, String.join_cons, ih, List.flatMap_cons, String.ofList_append]

/-- A stream that writes nothing else than the marked texts of a script writes the script. -/
theorem join_of_pieces {view : Token → String}
    (hview : ∀ mark prev next, view ⟨mark.kind, mark.span,
      slice? source mark.span.start mark.span.stop, prev, next, none⟩ = Mark.lexeme source mark)
    (h : pieces source = .ok found) :
    String.join ((TokenStream.ofMarks source (Piece.locate 0 found)).tokens.toList.map view) =
      source := by
  have htext : source.toList = [] ++ found.flatMap Piece.text := (pieces_eq h).1.symm
  have hlexemes : (Piece.locate 0 found).map (Mark.lexeme source) =
      found.map fun piece => String.ofList piece.text := lexeme_locate htext
  show String.join ((TokenStream.link source 0 none (Piece.locate 0 found)).1.map view) = source
  rw [TokenStream.link_map hview, hlexemes, join_texts, (pieces_eq h).1, String.ofList_toList]

theorem tokenize_of_pieces (h : pieces source = .ok found) :
    tokenize source = .ok (TokenStream.ofMarks source (Piece.locate 0 found)) := by
  unfold tokenize
  rw [h]
  rfl

/-- The stream of a script is made of its pieces. -/
theorem pieces_of_tokenize {stream : TokenStream} (h : tokenize source = .ok stream) :
    ∃ found, pieces source = .ok found ∧
      stream = TokenStream.ofMarks source (Piece.locate 0 found) := by
  obtain ⟨found, hfound, heq⟩ := exists_of_map_eq_ok h
  exact ⟨found, hfound, heq.symm⟩

/-- A token as a piece. -/
def Token.toPiece (token : Token) : Piece := ⟨token.kind, token.lexeme.toList⟩

/-- The tokens of a stream as pieces. -/
def TokenStream.toPieces (stream : TokenStream) : List Piece :=
  stream.tokens.toList.map Token.toPiece

/-- The tokens of a script are its pieces. -/
theorem toPieces_of_tokenize {stream : TokenStream} (h : tokenize source = .ok stream) :
    pieces source = .ok stream.toPieces := by
  obtain ⟨found, hpieces, rfl⟩ := pieces_of_tokenize h
  have htext : source.toList = [] ++ found.flatMap Piece.text := (pieces_eq hpieces).1.symm
  have hfound : (Piece.locate 0 found).map (Mark.toPiece source) = found := toPiece_locate htext
  refine hpieces.trans (congrArg Except.ok (Eq.symm (Eq.trans ?_ hfound)))
  exact TokenStream.link_map (fun _ _ _ => rfl) 0 none (Piece.locate 0 found)

/-! ## The law -/

/-- The spans partition the text into stretches of whole characters. -/
structure Partitions (source : String) (spans : List Span) : Prop where
  nonempty : ∀ span ∈ spans, span.start < span.stop
  boundary : ∀ span ∈ spans, (String.Pos.Raw.mk span.start).IsValid source ∧
    (String.Pos.Raw.mk span.stop).IsValid source
  first : ∀ span, spans.head? = some span → span.start = 0
  adjacent : ∀ (index : Nat) before after, spans[index]? = some before →
    spans[index + 1]? = some after → after.start = before.stop
  last : ∀ span, spans.getLast? = some span → span.stop = source.utf8ByteSize
  covers : spans = [] → source = ""

namespace Tiles

variable {start : Nat} {spans : List Span}

theorem start_eq (h : Tiles source start spans) {span : Span} (hspan : spans.head? = some span) :
    span.start = start := by
  cases h with
  | nil => exact absurd hspan (by simp)
  | cons _ _ _ _ =>
    obtain rfl := Option.some.inj hspan
    rfl

theorem mem (h : Tiles source start spans) {span : Span} (hmem : span ∈ spans) :
    span.start < span.stop ∧ (String.Pos.Raw.mk span.start).IsValid source ∧
      (String.Pos.Raw.mk span.stop).IsValid source := by
  induction h with
  | nil => exact absurd hmem List.not_mem_nil
  | cons hlt hstart hstop _ ih =>
    rcases List.mem_cons.mp hmem with rfl | hlater
    · exact ⟨hlt, hstart, hstop⟩
    · exact ih hlater

theorem adjacent (h : Tiles source start spans) {index : Nat} {before after : Span}
    (hbefore : spans[index]? = some before) (hafter : spans[index + 1]? = some after) :
    after.start = before.stop := by
  induction h generalizing index with
  | nil => exact absurd hbefore (by simp)
  | cons _ _ _ hlater ih =>
    cases index with
    | zero =>
      obtain rfl := Option.some.inj hbefore
      exact hlater.start_eq (by rw [List.head?_eq_getElem?]; exact hafter)
    | succ index => exact ih hbefore hafter

theorem stop_eq (h : Tiles source start spans) {span : Span}
    (hspan : spans.getLast? = some span) : span.stop = source.utf8ByteSize := by
  induction h with
  | nil => exact absurd hspan (by simp)
  | cons _ _ _ hlater ih =>
    cases hlater with
    | nil =>
      obtain rfl := Option.some.inj hspan
      rfl
    | cons _ _ _ _ =>
      rw [List.getLast?_cons_cons] at hspan
      exact ih hspan

/-- The spans begin behind each other. -/
theorem sorted (h : Tiles source start spans) :
    (∀ span ∈ spans, start ≤ span.start) ∧
      spans.Pairwise fun before after => before.start < after.start := by
  induction h with
  | nil => exact ⟨fun _ hmem => absurd hmem List.not_mem_nil, .nil⟩
  | @cons start stop later hlt _ _ _ ih =>
    obtain ⟨hleast, hsorted⟩ := ih
    have hbehind : ∀ span ∈ later, start < span.start :=
      fun span hmem => Nat.lt_of_lt_of_le hlt (hleast span hmem)
    refine ⟨fun span hmem => ?_, List.pairwise_cons.mpr ⟨hbehind, hsorted⟩⟩
    rcases List.mem_cons.mp hmem with rfl | hmem
    · exact Nat.le_refl start
    · exact Nat.le_of_lt (hbehind span hmem)

theorem partitions (h : Tiles source 0 spans) : Partitions source spans where
  nonempty _ hmem := (h.mem hmem).1
  boundary _ hmem := (h.mem hmem).2
  first _ hspan := h.start_eq hspan
  adjacent _ _ _ hbefore hafter := h.adjacent hbefore hafter
  last _ hspan := h.stop_eq hspan
  covers hnil := by
    subst hnil
    generalize hzero : 0 = start at h
    cases h
    exact String.utf8ByteSize_eq_zero_iff.mp hzero.symm

end Tiles

/-- **Nothing is lost.** Every text is taken apart, or a literal in it has no end. If it is taken
apart, the tokens partition it, and the stream writes the text again, as its source text and as its
rendering; and so it is after the classification. -/
theorem lossless_tokenization (source : String) :
    (∃ error, tokenize source = .error error) ∨
      ∃ stream, tokenize source = .ok stream ∧
        Partitions source stream.spans ∧ stream.sourceText = source ∧ stream.render = source ∧
        Partitions source stream.classify.spans ∧ stream.classify.sourceText = source ∧
        stream.classify.render = source := by
  unfold tokenize
  cases hpieces : pieces source with
  | error error => exact Or.inl ⟨error, rfl⟩
  | ok found =>
    let stream := TokenStream.ofMarks source (Piece.locate 0 found)
    have htext : source.toList = [] ++ found.flatMap Piece.text := (pieces_eq hpieces).1.symm
    have hspans : Partitions source stream.spans := by
      rw [TokenStream.spans_ofMarks]
      exact (locate_tiles htext (pieces_eq hpieces).2).partitions
    have hsource : stream.sourceText = source := join_of_pieces (fun _ _ _ => rfl) hpieces
    have hrender : stream.render = source := join_of_pieces (fun _ _ _ => rfl) hpieces
    refine Or.inr ⟨stream, rfl, hspans, hsource, hrender, ?_, ?_, ?_⟩
    · rw [TokenStream.spans_classify]
      exact hspans
    · rw [TokenStream.sourceText_classify]
      exact hsource
    · rw [TokenStream.render_classify]
      exact hrender

/-- A template literal with a character of two bytes, and an interpolation in it. -/
theorem template_is_partitioned :
    let source := "\x60é$\x7bx\x7d\x60"
    ∃ stream, tokenize source = .ok stream ∧ Partitions source stream.spans ∧
      stream.spans = [⟨0, 3⟩, ⟨3, 5⟩, ⟨5, 6⟩, ⟨6, 7⟩, ⟨7, 8⟩] ∧
      stream.classify.render = source := by
  intro source
  have hspans : (tokenize source).toOption.map TokenStream.spans =
      some [⟨0, 3⟩, ⟨3, 5⟩, ⟨5, 6⟩, ⟨6, 7⟩, ⟨7, 8⟩] := by decide +kernel
  rcases lossless_tokenization source with ⟨error, herror⟩ |
    ⟨stream, hstream, hpartitions, -, -, -, -, hrender⟩
  · rw [herror] at hspans
    exact absurd hspans (by simp [Except.toOption])
  · rw [hstream] at hspans
    exact ⟨stream, hstream, hpartitions, Option.some.inj hspans, hrender⟩

end ScriptLink
