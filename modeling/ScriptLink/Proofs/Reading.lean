import ScriptLink.Proofs.Revision

/-!
# Reading through a statement

The scanner and the statements see a script differently: the one takes pieces and counts braces, the
others go from token to token. Here the one view is led along the other, so that the context behind
a statement is known from its tokens.

* **`TokenStream.ToItem`** — the step from a place to the next token: the trivia between is
  passable, and the token is the piece that the scanner takes there.
* **`Scanned.plain`**, **`Scanned.name`**, **`Scanned.star`** — what the scanner takes for one
  token.
* **`Detached`** — tokens with all their braces in pairs. `scanned_of_detached`: they leave the
  context as they find it, and a statement that is removed is detached (`Removal.detached`).
-/

namespace ScriptLink

open Context Piece

/-- A text that begins no bracket of a kind that the scanner counts, and no template literal. -/
def PlainText (s : List Char) : Prop :=
  ∀ c, s.head? = some c → c ≠ '\x7b' ∧ c ≠ '\x7d' ∧ c ≠ '\x60'

instance (s : List Char) : Decidable (PlainText s) :=
  match s with
  | [] => isTrue fun _ h => absurd h (by simp)
  | c :: _ =>
    if h : c ≠ '\x7b' ∧ c ≠ '\x7d' ∧ c ≠ '\x60' then isTrue fun _ hd => Option.some.inj hd ▸ h
    else isFalse fun hplain => h (hplain c rfl)

theorem PlainText.of_isName {s : List Char} (h : Identifier.isName s = true) : PlainText s := by
  intro c hc
  cases s with
  | nil => exact absurd hc (by simp)
  | cons d tail =>
    obtain rfl : d = c := Option.some.inj hc
    have hstart := (Bool.and_eq_true_iff.mp h).1
    refine ⟨?_, ?_, ?_⟩ <;> rintro rfl <;> exact absurd hstart (by decide)

/-- The tokens of a list, and what stands around it, but not its braces. -/
theorem Item.IsEntry.plainText {item : Item} (h : item.IsEntry) (hfits : item.Fits) :
    PlainText item.text.toList := by
  rcases h with hname | hmark
  · rcases text_of_isName hfits hname with htext | htext
    · exact .of_isName htext
    · rw [htext]
      decide
  · have hall : ∀ text ∈ [",", "*", "as", "from"], PlainText text.toList := by decide
    exact hall _ hmark

theorem Item.plainText_of_string {item : Item} (hkind : item.kind = .string) (hfits : item.Fits) :
    PlainText item.text.toList := by
  unfold Item.Fits at hfits
  rw [hkind] at hfits
  intro c hc
  have hquote : some c = some '\x22' ∨ some c = some '\x27' := hc ▸ hfits
  rcases hquote with hquote | hquote <;> (obtain rfl := Option.some.inj hquote; decide)

/-- Tokens that leave the context as they find it: plain ones, and perhaps one pair of braces. -/
inductive Detached : List Item → Prop where
  | flat {items : List Item} (hitems : ∀ item ∈ items, PlainText item.text.toList) : Detached items
  | braced {before inner after : List Item} {opened closed : Item}
      (hbefore : ∀ item ∈ before, PlainText item.text.toList) (hopened : opened.text = "\x7b")
      (hinner : ∀ item ∈ inner, PlainText item.text.toList) (hclosed : closed.text = "\x7d")
      (hafter : ∀ item ∈ after, PlainText item.text.toList) :
      Detached (before ++ opened :: (inner ++ closed :: after))

theorem Detached.concat {items : List Item} {item : Item} (h : Detached items)
    (hitem : PlainText item.text.toList) : Detached (items ++ [item]) := by
  have hall {others : List Item} (hothers : ∀ other ∈ others, PlainText other.text.toList) :
      ∀ other ∈ others ++ [item], PlainText other.text.toList := by
    intro other hmem
    rcases List.mem_append.mp hmem with hmem | hmem
    · exact hothers other hmem
    · rw [List.mem_singleton.mp hmem]
      exact hitem
  cases h with
  | flat hitems => exact .flat (hall hitems)
  | braced hbefore hopened hinner hclosed hafter =>
    rw [List.append_assoc, List.cons_append, List.append_assoc, List.cons_append]
    exact .braced hbefore hopened hinner hclosed (hall hafter)

theorem Clause.detached {clause : List Item} (h : Clause clause)
    (hfits : ∀ item ∈ clause, item.Fits) : Detached clause := by
  cases h with
  | flat hentries => exact .flat fun item hmem => (hentries item hmem).plainText (hfits item hmem)
  | braced hbefore hopened hinner hclosed hafter =>
    refine .braced (fun item hmem => (hbefore item hmem).plainText (hfits item ?_)) hopened
      (fun item hmem => (hinner item hmem).plainText (hfits item ?_)) hclosed
      fun item hmem => (hafter item hmem).plainText (hfits item ?_) <;> simp [hmem]

/-- The place behind the last of some tokens, or `start` if there are none. -/
def Item.endsAt (start : Nat) (items : List Item) : Nat :=
  (items.getLast?.map fun item => item.id + 1).getD start

namespace TokenStream

variable {stream : TokenStream} {stack : List Interpolation} {start first last : Nat} {item : Item}
  {items rest : List Item} {piece : Piece}

/-- A statement that is removed leaves the context as it finds it. -/
theorem Removal.detached (hfits : stream.Fits) (h : stream.Removal first last) :
    ∃ items rest, stream.itemsFrom (first + 1) = items ++ rest ∧ Detached items ∧
      Item.endsAt (first + 1) items = last + 1 := by
  have hfit {before : List Item} {after : List Item}
      (hsplit : stream.itemsFrom (first + 1) = before ++ after) : ∀ item ∈ before, item.Fits :=
    fun item hmem => fits_of_mem hfits (hsplit ▸ List.mem_append_left _ hmem)
  -- the statement without the semicolon, and with it
  have hclose {items rest : List Item} {closing : Item}
      (hitems : stream.itemsFrom (first + 1) = items ++ closing :: rest)
      (hdetached : Detached (items ++ [closing])) :
      ∃ items' rest', stream.itemsFrom (first + 1) = items' ++ rest' ∧ Detached items' ∧
        Item.endsAt (first + 1) items' = Item.endOf closing.id rest + 1 := by
    rcases Item.endOf_cases closing.id rest with hlast | ⟨semicolon, later, rfl, htext, hlast⟩
    · refine ⟨items ++ [closing], rest, by rw [hitems]; simp, hdetached, ?_⟩
      rw [hlast]
      simp [Item.endsAt]
    · refine ⟨items ++ [closing] ++ [semicolon], later, by rw [hitems]; simp,
        hdetached.concat (by rw [htext]; decide), ?_⟩
      rw [hlast]
      simp [Item.endsAt]
  cases h with
  | @importing clause rest path hword hitems hclause hpath =>
    have hmem : path ∈ stream.itemsFrom (first + 1) := by
      rw [hitems]
      exact List.mem_append_right _ List.mem_cons_self
    exact hclose hitems ((hclause.detached (hfit hitems)).concat
      (Item.plainText_of_string hpath (fits_of_mem hfits hmem)))
  | @exporting entries rest opened closed hword hitems hopened hentries hclosed =>
    have hsplit : stream.itemsFrom (first + 1) = (opened :: entries) ++ closed :: rest := hitems
    refine hclose hsplit ?_
    have hinner : ∀ item ∈ entries, PlainText item.text.toList := fun item hmem =>
      (hentries item hmem).plainText (hfit hsplit item (List.mem_cons_of_mem _ hmem))
    have hnone : ∀ item ∈ ([] : List Item), PlainText item.text.toList :=
      fun _ hmem => absurd hmem List.not_mem_nil
    exact .braced hnone hopened hinner hclosed hnone

/-- A statement that is removed ends with nothing that makes a property of what is behind it. -/
theorem Removal.lastText? (hfits : stream.classify.Fits) (h : stream.classify.Removal first last) :
    ∀ text ∈ guards, lastText? (stream.toPieces.take (last + 1)) ≠ some text := by
  obtain ⟨body, closing, after, hitems, rfl, hclosing, -⟩ := h.parts
  have hfit : closing.Fits :=
    fits_of_mem hfits (hitems ▸ List.mem_append_right _ List.mem_cons_self)
  rw [lastText?_take (itemsFrom_split _ hitems).2.1]
  have hguards : ∀ text ∈ guards, text.head? ≠ some '\x22' ∧ text.head? ≠ some '\x27' ∧
      text ≠ "\x7d".toList ∧ text ≠ ";".toList := by decide
  intro text hmem heq
  obtain rfl := Option.some.inj heq
  obtain ⟨hdouble, hsingle, hbrace, hsemicolon⟩ := hguards _ hmem
  rcases hclosing with hkind | htext | htext
  · exact Item.ne_string_of_text hfit ⟨hdouble, hsingle⟩ hkind
  · exact hbrace (congrArg _ htext)
  · exact hsemicolon (congrArg _ htext)

/-! ## From token to token -/

/-- The next token of a statement in program text, with its piece and the trivia before it. -/
structure ToItem (stream : TokenStream) (stack : List Interpolation) (start : Nat) (item : Item)
    (piece : Piece) : Prop where
  le : start ≤ item.id
  lt : item.id < stream.size
  between : ∀ j, start ≤ j → j < item.id → ¬ stream.classify.IsMeaningful j
  trivia : ∀ other ∈ stream.piecesBetween start item.id, other.kind.isTrivia = true
  passable : Passable (texts (stream.piecesBetween start item.id))
  drop : stream.toPieces.drop item.id = piece :: stream.toPieces.drop (item.id + 1)
  kind : stream.kind? item.id = some piece.kind
  reads : stream.lexeme item.id = item.text
  text : piece.text = item.text.toList
  scanned : Scanned ⟨.code, stack⟩ (piece :: stream.toPieces.drop (item.id + 1))

theorem toItem (h : Scanned ⟨.code, stack⟩ (stream.toPieces.drop start))
    (hitems : stream.classify.itemsFrom start = item :: rest) :
    ∃ piece, stream.ToItem stack start item piece := by
  obtain ⟨hle, hmeans, -, -⟩ := itemsFrom_split [] hitems
  have hlt : item.id < stream.size := by
    have hlt := lt_size_of_meaningful? hmeans
    rwa [size_classify] at hlt
  obtain ⟨piece, hdrop, -, hkind, htext⟩ := piece_of_lt hlt
  obtain ⟨hnone, htrivia⟩ := trivia_between hitems
  have hmeaningful : piece.kind.isTrivia = false := by
    obtain ⟨kind, hkind', htrivia'⟩ := (isMeaningful_classify stream item.id).mp
      (isMeaningful_iff.mpr ⟨item, hmeans⟩)
    rwa [Option.some.inj (hkind.symm.trans hkind')]
  have hreads : stream.lexeme item.id = item.text := by
    rw [← lexeme_classify, lexeme_of_meaningful? hmeans]
  rw [drop_eq_append stream hle, hdrop] at h
  obtain ⟨hpassable, hscanned⟩ := h.passable htrivia hmeaningful
  exact ⟨piece, hle, hlt, hnone, htrivia, hpassable, hdrop, hkind, hreads,
    by rw [← htext, hreads], hscanned⟩

theorem ToItem.lastText? (h : stream.ToItem stack start item piece) :
    lastText? (stream.toPieces.take item.id) = lastText? (stream.toPieces.take start) :=
  lastText?_take_of_trivia h.le h.trivia

end TokenStream

theorem Scanned.plain {stack : List Interpolation} {piece : Piece} {rest : List Piece}
    (h : Scanned ⟨.code, stack⟩ (piece :: rest)) (hplain : PlainText piece.text) :
    Scanned ⟨.code, stack⟩ rest := by
  cases h with
  | @cons _ next position c tail kind _ hstep hrest =>
    replace hstep : Context.codeStep ⟨.code, stack⟩ position c _ = _ := hstep
    obtain ⟨hopen, hclose, htick⟩ := hplain c rfl
    obtain ⟨_, _, -, heq⟩ := plain_of_codeStep hstep hopen hclose htick
    obtain ⟨-, -, rfl⟩ := Step.mk.inj heq
    exact hrest

theorem Scanned.openBrace {stack : List Interpolation} {piece : Piece} {rest : List Piece}
    (h : Scanned ⟨.code, stack⟩ (piece :: rest)) (htext : piece.text = ['\x7b']) :
    Scanned (Context.openBrace ⟨.code, stack⟩) rest := by
  cases h with
  | @cons _ next position c tail kind _ hstep hrest =>
    obtain ⟨rfl, -⟩ := List.cons.inj htext
    obtain ⟨-, -, rfl⟩ := Step.mk.inj (Except.ok.inj hstep)
    exact hrest

theorem Scanned.closeBrace {stack : List Interpolation} {piece : Piece} {rest : List Piece}
    (h : Scanned ⟨.code, stack⟩ (piece :: rest)) (htext : piece.text = ['\x7d']) :
    Scanned (Context.closeBrace ⟨.code, stack⟩) rest := by
  cases h with
  | @cons _ next position c tail kind _ hstep hrest =>
    obtain ⟨rfl, -⟩ := List.cons.inj htext
    obtain ⟨-, -, rfl⟩ := Step.mk.inj (Except.ok.inj hstep)
    exact hrest

/-- A name is taken as a whole. -/
theorem Scanned.name {stack : List Interpolation} {piece : Piece} {rest : List Piece}
    (h : Scanned ⟨.code, stack⟩ (piece :: rest)) (hname : Identifier.isName piece.text = true) :
    piece.kind = .identifier ∧ Scanned ⟨.code, stack⟩ rest ∧
      Stops Identifier.isContinue (texts rest) := by
  cases h with
  | @cons _ next position c tail kind _ hstep hrest =>
    replace hstep : Context.codeStep ⟨.code, stack⟩ position c _ = _ := hstep
    rw [codeStep_eq, Lead.of_isStart (Bool.and_eq_true_iff.mp hname).1] at hstep
    obtain ⟨rfl, htail, rfl⟩ := Step.mk.inj (Except.ok.inj hstep)
    exact ⟨rfl, hrest, Stops.of_takeWhile htail⟩

/-- There are no names in template text, and every identifier is one. -/
theorem Scanned.identifier {context : Context} {text : List Char} {rest : List Piece}
    (h : Scanned context (⟨.identifier, text⟩ :: rest)) :
    ∃ stack, context = ⟨.code, stack⟩ ∧ Identifier.isName text = true := by
  obtain ⟨mode, stack⟩ := context
  cases h with
  | cons hstep _ =>
    cases mode with
    | code => exact ⟨stack, rfl, (fits_of_codeStep hstep).2⟩
    | template opened =>
      rcases templateStep_cases hstep with ⟨_, -, heq⟩ | ⟨_, _, -, heq⟩
      · exact absurd (Step.mk.inj heq).1 (by simp)
      · exact absurd (Step.mk.inj heq).1 (by simp)

/-- A star that is taken alone stands before no longer operator. -/
theorem Scanned.star {stack : List Interpolation} {piece : Piece} {rest : List Piece}
    (h : Scanned ⟨.code, stack⟩ (piece :: rest)) (htext : piece.text = ['*']) :
    piece.kind = .operator ∧ Scanned ⟨.code, stack⟩ rest ∧
      Stops (fun c => c == '*' || c == '=') (texts rest) := by
  cases h with
  | @cons _ next position c tail kind _ hstep hrest =>
    obtain ⟨rfl, rfl⟩ := List.cons.inj htext
    replace hstep : Context.codeStep ⟨.code, stack⟩ position '*' (texts rest) = _ := hstep
    rw [codeStep_eq, show Lead.of '*' = .mark by decide] at hstep
    dsimp only at hstep
    rw [if_neg (by simp [Operator.isSeparator])] at hstep
    unfold operatorStep at hstep
    rcases Operator.star_cases (texts rest) with ⟨hstops, hmatch⟩ | ⟨operator, hmatch, hlong⟩
    · rw [hmatch] at hstep
      obtain ⟨rfl, -, rfl⟩ := Step.mk.inj (Except.ok.inj hstep)
      exact ⟨rfl, hrest, hstops⟩
    · rw [hmatch] at hstep
      exact absurd (Step.mk.inj (Except.ok.inj hstep)).2.1 hlong

namespace TokenStream

variable {stream : TokenStream} {stack : List Interpolation} {start : Nat} {items rest : List Item}

/-- The scanner takes a keyword as a name in program text. -/
theorem scanned_of_isKeyword {source word : String} {context : Context} {id : Nat}
    (h : tokenize source = .ok stream) (hword : stream.classify.IsKeyword id word)
    (hreserved : isReserved word = true) (hscanned : Scanned context (stream.toPieces.drop id)) :
    ∃ stack, context = ⟨.code, stack⟩ ∧
      stream.toPieces.drop id = ⟨.identifier, word.toList⟩ :: stream.toPieces.drop (id + 1) ∧
      Scanned ⟨.code, stack⟩ (stream.toPieces.drop (id + 1)) ∧
      Stops Identifier.isContinue (texts (stream.toPieces.drop (id + 1))) := by
  have hid : id < stream.size := by
    have hid := Rewriting.Ran.lt_size_of_isKeyword hword
    rwa [size_classify] at hid
  obtain ⟨hkind, hreads, -⟩ := (isKeyword_iff h hid hreserved).mp hword
  obtain ⟨⟨kind, text⟩, hdrop, -, hpiece, htext⟩ := piece_of_lt hid
  obtain rfl : kind = .identifier := Option.some.inj (hpiece.symm.trans hkind)
  obtain rfl : word.toList = text := hreads ▸ htext
  rw [hdrop] at hscanned
  obtain ⟨stack, rfl, hname⟩ := hscanned.identifier
  exact ⟨stack, rfl, hdrop, (hscanned.name hname).2⟩

/-- Plain tokens leave the context alone. -/
theorem scanned_of_plain (h : Scanned ⟨.code, stack⟩ (stream.toPieces.drop start))
    (hitems : stream.classify.itemsFrom start = items ++ rest)
    (hplain : ∀ item ∈ items, PlainText item.text.toList) :
    Scanned ⟨.code, stack⟩ (stream.toPieces.drop (Item.endsAt start items)) ∧
      stream.classify.itemsFrom (Item.endsAt start items) = rest := by
  induction items generalizing start with
  | nil => exact ⟨h, hitems⟩
  | cons item items ih =>
    obtain ⟨piece, hto⟩ := toItem h hitems
    have hscanned := hto.scanned.plain (hto.text ▸ hplain item List.mem_cons_self)
    have hends : Item.endsAt start (item :: items) = Item.endsAt (item.id + 1) items := by
      unfold Item.endsAt
      rw [List.getLast?_cons]
      cases items.getLast? <;> rfl
    rw [hends]
    exact ih hscanned (itemsFrom_split [] hitems).2.2.1
      fun other hmem => hplain other (List.mem_cons_of_mem _ hmem)

theorem closeBrace_openBrace {context : Context} (h : CountsBraces context) :
    context.openBrace.closeBrace = context := by
  obtain ⟨mode, stack⟩ := context
  cases stack with
  | nil => rfl
  | cons top outer =>
    have hdepth : 1 ≤ top.depth := h top List.mem_cons_self
    unfold Context.openBrace Context.closeBrace
    dsimp only
    rw [if_neg (by omega), Nat.add_sub_cancel]

/-- Detached tokens leave the context as they find it. -/
theorem scanned_of_detached (h : Scanned ⟨.code, stack⟩ (stream.toPieces.drop start))
    (hcounts : CountsBraces ⟨.code, stack⟩)
    (hitems : stream.classify.itemsFrom start = items ++ rest) (hdetached : Detached items) :
    Scanned ⟨.code, stack⟩ (stream.toPieces.drop (Item.endsAt start items)) := by
  cases hdetached with
  | flat hplain => exact (scanned_of_plain h hitems hplain).1
  | @braced before inner after opened closed hbefore hopened hinner hclosed hafter =>
    rw [List.append_assoc] at hitems
    obtain ⟨hscanned, hrest⟩ := scanned_of_plain h hitems hbefore
    obtain ⟨piece, hto⟩ := toItem hscanned hrest
    have hinside := hto.scanned.openBrace (hto.text.trans (by rw [hopened]; rfl))
    have hclosing := closeBrace_openBrace hcounts
    obtain ⟨inside, hstack⟩ : ∃ inside, Context.openBrace ⟨.code, stack⟩ = ⟨.code, inside⟩ := by
      cases stack with
      | nil => exact ⟨_, rfl⟩
      | cons top outer => exact ⟨_, rfl⟩
    rw [hstack] at hinside hclosing
    have hbehind : stream.classify.itemsFrom (opened.id + 1) =
        inner ++ (closed :: (after ++ rest)) :=
      (itemsFrom_split [] hrest).2.2.1.trans (by simp)
    obtain ⟨hscanned', hrest'⟩ := scanned_of_plain hinside hbehind hinner
    obtain ⟨piece', hto'⟩ := toItem hscanned' hrest'
    have houtside := hto'.scanned.closeBrace (hto'.text.trans (by rw [hclosed]; rfl))
    rw [hclosing] at houtside
    have hends : Item.endsAt start (before ++ opened :: (inner ++ closed :: after)) =
        Item.endsAt (closed.id + 1) after := by
      unfold Item.endsAt
      rw [List.getLast?_append, List.getLast?_cons, List.getLast?_append, List.getLast?_cons]
      cases after.getLast? <;> rfl
    rw [hends]
    exact (scanned_of_plain houtside (itemsFrom_split [] hrest').2.2.1 hafter).1

end TokenStream

end ScriptLink
