import ScriptLink.Proofs.Pieces

/-!
# What the pass makes of the rest of a script

The pass keeps most pieces, and what it changes it changes at a few kinds of places: `let` becomes
`var`, a statement goes, a header loses its keyword. For each of them there is one step here, from
what is known of a rest of the script to what is known of a longer one.

* **`Piece.AsksNothing`**, **`InertFrom`** — pieces between whose neighbours the pass would do
  nothing. `inert_of_inertFrom`: a script of such pieces is inert.
* **`Revision`** — what is known of the old rest and the new text: what the scanner finds in the new
  one, that it is inert, and that the two go on alike for the pieces before. Where the rest stands
  behind a line break, or behind trivia that hides it, no piece before looks at it.
* **`Revision.keep`**, **`Revision.shorten`**, **`Revision.drop`**, **`Revision.gap`**,
  **`Revision.word`**, **`Revision.star`**, **`Revision.marked`**, **`Revision.assign`** — the
  steps.
-/

namespace ScriptLink

open Context Piece

/-! ## Nothing left to do -/

/-- The words that the pass acts on wherever they are keywords. -/
def Piece.actedOn : List (List Char) := ["let".toList, "const".toList, "export".toList]

/-- Between the two texts, the piece is nothing that the pass acts on. -/
def Piece.AsksNothing (before behind : Option (List Char)) (piece : Piece) : Prop :=
  piece.kind = .identifier →
    (piece.text ∈ actedOn → IsProperty before behind) ∧
      (piece.text = "import".toList →
        IsProperty before behind ∨ behind = some ['('] ∨ behind = some ['.'])

/-- None of the pieces is anything that the pass acts on. -/
def InertFrom : Option (List Char) → List Piece → Prop
  | _, [] => True
  | before, piece :: rest =>
    piece.AsksNothing before (rest.head?.map Piece.text) ∧ InertFrom (some piece.text) rest

/-- The texts that make a property of the name behind them. -/
def Piece.guards : List (List Char) := [['.'], ['?', '.'], ['\x7b'], [',']]

/-- The texts that make a property, or an expression, of the word before them. -/
def Piece.openers : List (List Char) := [[':'], ['('], ['.']]

theorem Piece.isName_mark {word : List Char} (h : Identifier.isName word = true) :
    word ∉ guards ∧ word ∉ openers := by
  have hmarks : ∀ mark ∈ guards ++ openers, Identifier.isName mark = false := by decide
  constructor <;> intro hmem
  · rw [hmarks word (List.mem_append_left _ hmem)] at h
    exact absurd h (by simp)
  · rw [hmarks word (List.mem_append_right _ hmem)] at h
    exact absurd h (by simp)

theorem Piece.not_isProperty {before behind : Option (List Char)}
    (h : ∀ text ∈ guards, before ≠ some text) : ¬ IsProperty before behind := by
  rintro (hdot | hdot | ⟨-, hbrace | hcomma⟩)
  · exact h _ (by decide) hdot
  · exact h _ (by decide) hdot
  · exact h _ (by decide) hbrace
  · exact h _ (by decide) hcomma

theorem Piece.IsProperty.congr {before other behind behind' : Option (List Char)}
    (h : IsProperty before behind)
    (hbefore : ∀ text ∈ guards, before = some text → other = some text)
    (hbehind : ∀ text ∈ openers, behind = some text → behind' = some text) :
    IsProperty other behind' := by
  rcases h with h | h | ⟨hcolon, h⟩
  · exact .inl (hbefore _ (by decide) h)
  · exact .inr (.inl (hbefore _ (by decide) h))
  · exact .inr (.inr ⟨hbehind _ (by decide) hcolon,
      h.imp (hbefore _ (by decide)) (hbefore _ (by decide))⟩)

theorem Piece.AsksNothing.congr {before other behind behind' : Option (List Char)} {piece : Piece}
    (h : piece.AsksNothing before behind)
    (hbefore : ∀ text ∈ guards, before = some text → other = some text)
    (hbehind : ∀ text ∈ openers, behind = some text → behind' = some text) :
    piece.AsksNothing other behind' := by
  intro hkind
  obtain ⟨hwords, himport⟩ := h hkind
  refine ⟨fun hmem => (hwords hmem).congr hbefore hbehind, fun htext => ?_⟩
  rcases himport htext with h | h | h
  · exact .inl (h.congr hbefore hbehind)
  · exact .inr (.inl (hbehind _ (by decide) h))
  · exact .inr (.inr (hbehind _ (by decide) h))

theorem InertFrom.asksNothing {before : Option (List Char)} {piece : Piece} {after : List Piece}
    (pieces : List Piece) (h : InertFrom before (pieces ++ piece :: after)) :
    piece.AsksNothing ((pieces.getLast?.map Piece.text).or before)
      (after.head?.map Piece.text) := by
  induction pieces generalizing before with
  | nil => exact h.1
  | cons first rest ih =>
    have hrest := ih h.2
    rw [List.getLast?_cons]
    cases hlast : rest.getLast? with
    | none =>
      rw [hlast] at hrest
      exact hrest
    | some last =>
      rw [hlast] at hrest
      exact hrest

/-- A script in which no piece asks for anything has no keyword that does. -/
theorem inert_of_inertFrom {source : String} {stream : TokenStream}
    (h : tokenize source = .ok stream)
    (hinert : InertFrom none (stream.toPieces.filter isMeaningful)) : stream.classify.Inert := by
  have hasks {id : Nat} {word : String} (hword : stream.classify.IsKeyword id word)
      (hreserved : isReserved word = true) :
      ¬ IsProperty (lastText? (stream.toPieces.take id))
          (firstText? (stream.toPieces.drop (id + 1))) ∧
        AsksNothing (lastText? (stream.toPieces.take id))
          (firstText? (stream.toPieces.drop (id + 1))) ⟨.identifier, word.toList⟩ := by
    have hid : id < stream.size := by
      have hid := Rewriting.Ran.lt_size_of_isKeyword hword
      rwa [TokenStream.size_classify] at hid
    obtain ⟨hkind, hreads, hnames⟩ := (TokenStream.isKeyword_iff h hid hreserved).mp hword
    obtain ⟨⟨kind, text⟩, hdrop, -, hpiece, htext⟩ := TokenStream.piece_of_lt hid
    obtain rfl : kind = .identifier := Option.some.inj (hpiece.symm.trans hkind)
    obtain rfl : word.toList = text := hreads ▸ htext
    refine ⟨hnames, ?_⟩
    have hsplit : stream.toPieces.filter isMeaningful =
        (stream.toPieces.take id).filter isMeaningful ++
          ⟨.identifier, word.toList⟩ :: (stream.toPieces.drop (id + 1)).filter isMeaningful := by
      conv =>
        lhs
        rw [← List.take_append_drop id stream.toPieces, hdrop, List.filter_append]
      rfl
    have hfound := InertFrom.asksNothing _ (hsplit ▸ hinert)
    rwa [Option.or_none] at hfound
  constructor
  · intro id word hmem hword
    have hwords : ∀ word ∈ ["let", "const", "export"],
        isReserved word = true ∧ word.toList ∈ actedOn := by decide
    obtain ⟨hnames, hnothing⟩ := hasks hword (hwords word hmem).1
    exact hnames ((hnothing rfl).1 (hwords word hmem).2)
  · intro id hword
    obtain ⟨hnames, hnothing⟩ := hasks hword (by decide)
    exact (TokenStream.isDynamic_iff stream id).mpr
      (((hnothing rfl).2 rfl).resolve_left hnames)

/-- The last text that is no trivia, one piece later. -/
def Piece.afterwards (before : Option (List Char)) (piece : Piece) : Option (List Char) :=
  if piece.kind.isTrivia then before else some piece.text

/-! ## Revisions -/

/-- What is known of the rest of a script and of what the pass writes in its place: `before` is the
last text before it that is no trivia, and `found` is what the scanner finds in the new text. Unless
the rest begins behind a line break, or is otherwise `hidden` from the pieces before it, the two
texts go on alike. -/
structure Revision (hidden : Bool) (context : Context) (before : Option (List Char))
    (old : List Piece) (new : List Char) (found : List Piece) : Prop where
  rescans : Rescans context new found
  agrees : hidden = false ∨ context.mode ≠ .code → Agrees (texts old) new
  inert : ∀ other, (∀ text ∈ guards, before = some text → other = some text) →
    InertFrom other found
  first : ∀ text ∈ openers, firstText? old = some text → found.head?.map Piece.text = some text

theorem endsLine_iff {s : List Char} (h : endsLine s = true) :
    ∃ part c, s = part ++ [c] ∧ RegExp.isLineBreak c = true := by
  unfold endsLine at h
  cases hlast : s.getLast? with
  | none =>
    rw [hlast] at h
    exact absurd h (by simp)
  | some c =>
    obtain ⟨part, rfl⟩ := List.getLast?_eq_some_iff.mp hlast
    rw [hlast] at h
    exact ⟨part, c, rfl, h⟩

/-- A step that ends a line and goes on in program text takes white space. -/
theorem Context.blank_of_endsLine {context next : Context} {position : Nat} {c : Char}
    {rest tail : List Char} {kind : TokenKind}
    (hstep : context.step position c rest = .ok ⟨kind, tail, next⟩)
    (hends : endsLine (c :: tail) = true) (hcode : next.mode = .code) :
    kind = .whitespace ∧ next = context ∧ next.mode = .code ∧
      ∀ d ∈ c :: tail, Unicode.isBlank d = true := by
  unfold Context.step at hstep
  split at hstep
  · obtain rfl : kind = .whitespace := kind_of_endsLine hstep hcode hends
    have hblank : ∀ d ∈ c :: tail, Unicode.isBlank d = true := (fits_of_codeStep hstep).2
    rw [codeStep_eq, Lead.of_isBlank (hblank c List.mem_cons_self)] at hstep
    exact ⟨rfl, (Step.mk.inj (Except.ok.inj hstep)).2.2.symm, hcode, hblank⟩
  · rcases templateStep_cases hstep with ⟨later, heq, hopener⟩ | ⟨tail', closes, hsegment, heq⟩
    · obtain ⟨rfl, -⟩ := List.cons.inj heq
      obtain ⟨-, rfl, -⟩ := Step.mk.inj hopener
      exact absurd hends (by decide)
    · obtain ⟨-, rfl, rfl⟩ := Step.mk.inj heq
      cases closes with
      | false => exact absurd hcode (by simp [afterSegment])
      | true =>
        obtain ⟨body, htext, -⟩ := Template.quiet_of_closing hsegment
        rw [htext, endsLine_append _ (by simp)] at hends
        exact absurd hends (by decide)

namespace Revision

variable {hidden : Bool} {context next : Context} {position : Nat} {c : Char} {tail new : List Char}
  {kind : TokenKind} {stack : List Interpolation} {before : Option (List Char)}
  {rest found trivia gone : List Piece} {name : List Char}

theorem nil (hidden : Bool) (before : Option (List Char)) :
    Revision hidden .start before [] [] [] where
  rescans := .nil
  agrees _ := .nil
  inert _ _ := trivial
  first _ _ h := absurd h (by simp [firstText?])

/-- A piece that stays. -/
theorem keep (hstep : context.step position c (tail ++ texts rest) = .ok ⟨kind, tail, next⟩)
    (hasks : kind.isTrivia = false →
      (⟨kind, c :: tail⟩ : Piece).AsksNothing before (firstText? rest))
    (h : Revision (endsLine (c :: tail)) next (afterwards before ⟨kind, c :: tail⟩) rest new
      found) :
    Revision hidden context before (⟨kind, c :: tail⟩ :: rest) (c :: tail ++ new)
      ([(⟨kind, c :: tail⟩ : Piece)].filter isMeaningful ++ found) where
  rescans := by
    by_cases hline : endsLine (c :: tail) = true ∧ next.mode = .code
    · obtain ⟨rfl, rfl, hmode, hblank⟩ := blank_of_endsLine hstep hline.1 hline.2
      obtain ⟨mode, stack⟩ := next
      obtain rfl : mode = .code := hmode
      exact h.rescans.blanks hblank
    · have hseen : endsLine (c :: tail) = false ∨ next.mode ≠ .code := by
        by_cases hends : endsLine (c :: tail) = true
        · exact .inr fun hmode => hline ⟨hends, hmode⟩
        · exact .inl (by simpa using hends)
      exact h.rescans.step (step_append hstep rfl (h.agrees hseen))
  agrees _ := by
    rw [texts_cons]
    cases hends : endsLine (c :: tail) with
    | false => exact (h.agrees (.inl hends)).append _
    | true =>
      obtain ⟨part, d, htext, hd⟩ := endsLine_iff hends
      rw [htext, List.append_assoc, List.append_assoc]
      exact .of_lineBreak part hd
  inert other hother := by
    have hfound := h.inert
    unfold afterwards at hfound
    cases htrivia : kind.isTrivia with
    | true =>
      rw [htrivia] at hfound
      rw [List.filter_cons_of_neg (by simp [isMeaningful, htrivia])]
      exact hfound other hother
    | false =>
      rw [htrivia] at hfound
      rw [List.filter_cons_of_pos (by simp [isMeaningful, htrivia])]
      exact ⟨(hasks htrivia).congr hother h.first, hfound _ fun _ _ heq => heq⟩
  first text htext hfirst := by
    rw [firstText?_cons] at hfirst
    cases htrivia : kind.isTrivia with
    | true =>
      rw [htrivia] at hfirst
      rw [List.filter_cons_of_neg (by simp [isMeaningful, htrivia])]
      exact h.first text htext hfirst
    | false =>
      rw [htrivia] at hfirst
      rw [List.filter_cons_of_pos (by simp [isMeaningful, htrivia])]
      exact hfirst

/-- A name that is written in place of another, before what does not continue it. -/
theorem word {written : List Char} (h : Revision hidden ⟨.code, stack⟩ (some name) rest new found)
    (hword : Identifier.isName name = true) (hwritten : Identifier.isName written = true)
    (hsafe : written ∉ "import".toList :: actedOn) (hstops : Stops Identifier.isContinue new) :
    Revision true ⟨.code, stack⟩ before (⟨.identifier, name⟩ :: rest) (written ++ new)
      (⟨.identifier, written⟩ :: found) where
  rescans := h.rescans.word hwritten hstops
  agrees hseen := absurd hseen (by simp)
  inert other _ := by
    refine ⟨fun _ => ⟨fun hmem => absurd (List.mem_cons_of_mem _ hmem) hsafe,
      fun htext => absurd (htext ▸ List.mem_cons_self) hsafe⟩, h.inert _ fun text hmem heq => ?_⟩
    exact absurd (Option.some.inj heq ▸ hmem) (isName_mark hword).1
  first text hmem hfirst := by
    obtain rfl : name = text := Option.some.inj hfirst
    exact absurd hmem (isName_mark hword).2

/-- `let` and `const` become `var`, which the text before them cannot tell. -/
theorem shorten (h : Revision false ⟨.code, stack⟩ (some name) rest new found)
    (hword : name = "let".toList ∨ name = "const".toList)
    (hstops : Stops Identifier.isContinue new) :
    Revision hidden ⟨.code, stack⟩ before (⟨.identifier, name⟩ :: rest) ("var".toList ++ new)
      (⟨.identifier, "var".toList⟩ :: found) :=
  have hname : Identifier.isName name = true := by rcases hword with rfl | rfl <;> decide
  { h.word hname (by decide) (by decide) hstops with
    agrees := fun _ => .word hword (h.agrees (.inl rfl)) }

/-- A declared name gets its mark. -/
theorem marked (h : Revision hidden ⟨.code, stack⟩ (some name) rest new found)
    (hword : Identifier.isName name = true) (hsafe : name ∉ "import".toList :: actedOn) :
    Revision true ⟨.code, stack⟩ before (⟨.identifier, name⟩ :: rest)
      (name ++ " /* exported */".toList ++ new) (⟨.identifier, name⟩ :: found) where
  rescans := h.rescans.marked hword
  agrees hseen := absurd hseen (by simp)
  inert other _ := by
    refine ⟨fun _ => ⟨fun hmem => absurd (List.mem_cons_of_mem _ hmem) hsafe,
      fun htext => absurd (htext ▸ List.mem_cons_self) hsafe⟩, h.inert _ fun _ _ heq => heq⟩
  first text hmem hfirst := by
    obtain rfl : name = text := Option.some.inj hfirst
    exact absurd hmem (isName_mark hword).2

/-- A star before what makes no longer operator of it. -/
theorem star (h : Revision hidden ⟨.code, stack⟩ (some ['*']) rest new found)
    (hstops : Stops (fun c => c == '*' || c == '=') new) :
    Revision true ⟨.code, stack⟩ before (⟨.operator, ['*']⟩ :: rest) ('*' :: new)
      (⟨.operator, ['*']⟩ :: found) where
  rescans := by
    have hstep : Context.step ⟨.code, stack⟩ 0 '*' ([] ++ new) =
        .ok ⟨.operator, [], ⟨.code, stack⟩⟩ := by
      show Context.codeStep _ 0 '*' new = _
      rw [codeStep_eq, show Lead.of '*' = .mark by decide]
      dsimp only
      rw [if_neg (by simp [Operator.isSeparator])]
      unfold operatorStep
      rw [Operator.match?_star hstops]
      rfl
    exact h.rescans.step hstep
  agrees hseen := absurd hseen (by simp)
  inert other _ := ⟨fun hkind => absurd hkind (by simp), h.inert _ fun _ _ heq => heq⟩
  first text hmem hfirst := absurd (Option.some.inj hfirst ▸ hmem) (by decide)

/-- Pieces that go, at a place where nothing before looks. -/
theorem drop {after : Option (List Char)}
    (h : Revision hidden ⟨.code, stack⟩ after rest new found)
    (hlast : ∀ text ∈ guards, after ≠ some text)
    (hfirst : ∀ text ∈ openers, firstText? (gone ++ rest) ≠ some text) :
    Revision true ⟨.code, stack⟩ before (gone ++ rest) new found where
  rescans := h.rescans
  agrees hseen := absurd hseen (by simp)
  inert other _ := h.inert other fun text hmem heq => absurd heq (hlast text hmem)
  first text hmem heq := absurd heq (hfirst text hmem)

theorem firstText?_gap (htrivia : ∀ piece ∈ trivia, piece.kind.isTrivia = true)
    (rest : List Piece) : firstText? (trivia ++ rest) = firstText? rest := by
  unfold firstText?
  rw [List.filter_append, List.filter_eq_nil_iff.mpr, List.nil_append]
  intro piece hmem
  simp [isMeaningful, htrivia piece hmem]

/-- Trivia at a place where nothing before looks. -/
theorem gap (h : Revision hidden ⟨.code, stack⟩ before rest new found)
    (htrivia : ∀ piece ∈ trivia, piece.kind.isTrivia = true) (hpassable : Passable (texts trivia)) :
    Revision true ⟨.code, stack⟩ before (trivia ++ rest) (texts trivia ++ new) found where
  rescans := hpassable _ _ _ h.rescans
  agrees hseen := absurd hseen (by simp)
  inert := h.inert
  first text hmem hfirst := h.first text hmem (firstText?_gap htrivia rest ▸ hfirst)

/-- The assignment to the default member takes the place of `default`. -/
theorem assign (h : Revision hidden ⟨.code, stack⟩ (some "default".toList) rest new found)
    (hpassable : Passable (texts trivia)) :
    Revision true ⟨.code, stack⟩ before (⟨.identifier, "default".toList⟩ :: (trivia ++ rest))
      (texts trivia ++ ("exports.default = ".toList ++ new))
      (⟨.identifier, "exports".toList⟩ :: ⟨.delimiter, ['.']⟩ ::
        ⟨.identifier, "default".toList⟩ :: ⟨.operator, ['=']⟩ :: found) where
  rescans := hpassable _ _ _ h.rescans.assigned
  agrees hseen := absurd hseen (by simp)
  inert other _ := by
    refine ⟨fun _ => ⟨fun hmem => absurd hmem (by decide), fun htext => absurd htext (by decide)⟩,
      fun hkind => absurd hkind (by simp),
      fun _ => ⟨fun hmem => absurd hmem (by decide), fun htext => absurd htext (by decide)⟩,
      fun hkind => absurd hkind (by simp), h.inert _ fun text hmem heq => ?_⟩
    exact absurd (Option.some.inj heq ▸ hmem) (by decide)
  first text hmem hfirst := absurd (Option.some.inj hfirst ▸ hmem) (by decide)

end Revision

end ScriptLink
