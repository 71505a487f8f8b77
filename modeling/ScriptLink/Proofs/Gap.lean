import ScriptLink.Proofs.Written

/-!
# Where a statement has been removed

A statement that is removed leaves a gap between the nearest tokens on either side that are no
trivia. Nothing is put into the gap: what it holds is the white space and the comments that stood
before the statement and behind it. The semicolon of the statement goes with it, so where the tokens
on either side do not end a statement, only a line break is left to keep them apart.

* **`TokenStream.textBetween`** — what some tokens contribute, one after the other. Ranges that abut
  are glued together by `textBetween_append`.
* **`TokenStream.Surrounds`** — a removed statement and its neighbours.
* **`removal_leaves_trivia`** — the law, and `statements_can_join`: what does not follow from it.
-/

namespace ScriptLink

open TokenStream Rewriting

namespace TokenStream

variable {stream : TokenStream} {id first last before after start middle stop : Nat}
  {view other : Nat → String}

/-! ## Ranges of tokens -/

/-- What the tokens from `start` up to `stop` contribute, if each contributes its `view`. -/
def textBetween (view : Nat → String) (start stop : Nat) : String :=
  String.join ((List.range' start (stop - start)).map view)

theorem textBetween_append (view : Nat → String) (hle : start ≤ middle) (hle' : middle ≤ stop) :
    textBetween view start middle ++ textBetween view middle stop = textBetween view start stop := by
  unfold textBetween
  rw [← String.join_append, ← List.map_append, show stop - start =
    (middle - start) + (stop - middle) by omega, ← List.range'_append_1,
    show start + (middle - start) = middle by omega]

theorem textBetween_congr (h : ∀ id, start ≤ id → id < stop → view id = other id) :
    textBetween view start stop = textBetween other start stop := by
  refine congrArg String.join (List.map_congr_left fun id hmem => ?_)
  obtain ⟨hstart, hstop⟩ := List.mem_range'_1.mp hmem
  exact h id hstart (by omega)

/-- Tokens that contribute nothing do not count. -/
theorem textBetween_of_empty (h : ∀ id, start ≤ id → id < stop → view id = "") :
    textBetween view start stop = "" := by
  rw [textBetween_congr h]
  unfold textBetween
  generalize List.range' start (stop - start) = ids
  induction ids with
  | nil => rfl
  | cons id rest ih => rw [List.map_cons, String.join_cons, ih, String.empty_append]

theorem render_eq_textBetween (stream : TokenStream) :
    stream.render = textBetween stream.written 0 stream.size := by
  rw [render_eq, List.range_eq_range']
  rfl

/-! ## A statement and its neighbours -/

/-- The statement from `first` through `last` is removed, and the nearest tokens on either side that
are no trivia are `before` and `after`. -/
structure Surrounds (stream : TokenStream) (before first last after : Nat) : Prop where
  removes : stream.Removes first last
  meaningful : stream.IsMeaningful before
  opens : stream.IsNext before first
  closes : stream.IsNext last after

theorem Removal.isMeaningful_last (h : stream.Removal first last) : stream.IsMeaningful last := by
  obtain ⟨body, closing, rest, hitems, rfl, -, -⟩ := h.parts
  exact isMeaningful_iff.mpr ⟨closing, (itemsFrom_split _ hitems).2.1⟩

theorem Removal.isMeaningful_first (h : stream.Removal first last) :
    stream.IsMeaningful first := by
  have hkind : stream.kind? first = some .keyword := h.isKeyword.elim (·.kind) (·.kind)
  exact ⟨.keyword, hkind, rfl⟩

/-- Two statements that are removed are the same or one is behind the other. -/
theorem Removes.trichotomy {first' last' : Nat} (hfits : stream.Fits)
    (h : stream.Removes first last) (h' : stream.Removes first' last') :
    last < first' ∨ last' < first ∨ (first = first' ∧ last = last') := by
  rcases Nat.lt_trichotomy first first' with hlt | rfl | hgt
  · exact .inl (h.lt_of_reached hfits h'.reached hlt)
  · exact .inr (.inr ⟨rfl, h.removal.unique hfits h'.removal⟩)
  · exact .inr (.inl (h'.lt_of_reached hfits h.reached hgt))

/-- No other statement takes the trivia around a removed one along: it would have to begin or end
there. -/
theorem Surrounds.not_removed (hfits : stream.Fits) (h : stream.Surrounds before first last after)
    (hid : before < id ∧ id < first ∨ last < id ∧ id < after) : ¬ stream.IsRemoved id := by
  rintro ⟨first', last', hremoves, hfirst, hlast⟩
  have hbegins := hremoves.removal.isMeaningful_first
  have hends := hremoves.removal.isMeaningful_last
  have hlt := h.removes.removal.lt
  rcases h.removes.trichotomy hfits hremoves with hbehind | hbefore | ⟨rfl, rfl⟩
  · -- the other one begins behind the statement and no later than the token
    rcases hid with hid | hid
    · omega
    · exact h.closes.nearest first' hbehind (by omega) hbegins
  · -- the other one ends before the statement and no earlier than the token
    rcases hid with hid | hid
    · exact h.opens.nearest last' (by omega) hbefore hends
    · omega
  · omega

/-- Around a removed statement there is nothing but trivia. -/
theorem Surrounds.isTrivia (h : stream.Surrounds before first last after)
    (hid : before < id ∧ id < first ∨ last < id ∧ id < after) :
    ∃ kind, stream.kind? id = some kind ∧ kind.isTrivia = true := by
  have hnot : ¬ stream.IsMeaningful id :=
    hid.elim (fun hid => h.opens.nearest id hid.1 hid.2)
      (fun hid => h.closes.nearest id hid.1 hid.2)
  have hsize : id < stream.size := by
    have hfirst := h.opens.meaningful.lt_size
    have hafter := h.closes.meaningful.lt_size
    omega
  have hkind : stream.kind? id = some stream.tokens[id].kind :=
    congrArg (Option.map Token.kind) (Array.getElem?_eq_getElem hsize)
  refine ⟨_, hkind, ?_⟩
  cases htrivia : stream.tokens[id].kind.isTrivia with
  | true => rfl
  | false => exact absurd ⟨_, hkind, htrivia⟩ hnot

/-- White space holds no semicolon. -/
theorem comment_of_semicolon {kind : TokenKind} (hfits : stream.Fits)
    (hkind : stream.kind? id = some kind) (htrivia : kind.isTrivia = true)
    (hmem : ';' ∈ (stream.lexeme id).toList) : kind = .comment ∨ kind = .docComment := by
  have hfit := hfits id kind hkind
  cases kind with
  | whitespace => exact absurd (hfit ';' hmem) (by decide)
  | comment => exact .inl rfl
  | docComment => exact .inr rfl
  | number => exact absurd htrivia Bool.false_ne_true
  | _ => exact absurd htrivia (by decide)

end TokenStream

namespace Rewriting.Ran

variable {exportsName : String} {stream : TokenStream} {state : Rewriting} {acts : Nat → Act}
  {before first last after id : Nat}

/-- The trivia around a removed statement is written as it was read. -/
theorem written_around (hfits : stream.Fits) (h : Ran exportsName stream acts stream.size state)
    (hsurrounds : stream.Surrounds before first last after)
    (hid : before < id ∧ id < first ∨ last < id ∧ id < after) :
    state.stream.written id = stream.lexeme id := by
  obtain ⟨kind, hkind, htrivia⟩ := hsurrounds.isTrivia hid
  have hsize : id < stream.size := lt_size_of_kind? hkind
  apply h.written_of_untouched hsize
  intro htouched
  exact hsurrounds.not_removed hfits hid (htouched.removed_of_trivia hkind htrivia)

/-- What stands in the gap is the trivia before the statement and the trivia behind it. -/
theorem textBetween_gap (hfits : stream.Fits) (h : Ran exportsName stream acts stream.size state)
    (hsurrounds : stream.Surrounds before first last after) :
    textBetween state.stream.written (before + 1) after =
      textBetween stream.lexeme (before + 1) first ++
        textBetween stream.lexeme (last + 1) after := by
  have hopens := hsurrounds.opens.lt
  have hlt := hsurrounds.removes.removal.lt
  have hcloses := hsurrounds.closes.lt
  have hinside : textBetween state.stream.written first (last + 1) = "" := by
    apply textBetween_of_empty
    intro id hfirst hlast
    exact h.written_of_removed hfits
      ⟨first, last, hsurrounds.removes, hfirst, Nat.le_of_lt_succ hlast⟩
  have hbefore : textBetween state.stream.written (before + 1) first =
      textBetween stream.lexeme (before + 1) first := by
    apply textBetween_congr
    intro id hid hfirst
    exact h.written_around hfits hsurrounds (.inl ⟨hid, hfirst⟩)
  have hbehind : textBetween state.stream.written (last + 1) after =
      textBetween stream.lexeme (last + 1) after := by
    apply textBetween_congr
    intro id hid hafter
    exact h.written_around hfits hsurrounds (.inr ⟨hid, hafter⟩)
  calc textBetween state.stream.written (before + 1) after
      = textBetween state.stream.written (before + 1) first ++
          (textBetween state.stream.written first (last + 1) ++
            textBetween state.stream.written (last + 1) after) := by
        rw [textBetween_append _ (by omega) (by omega),
          textBetween_append _ (by omega) (by omega)]
    _ = textBetween stream.lexeme (before + 1) first ++
          textBetween stream.lexeme (last + 1) after := by
        rw [hinside, String.empty_append, hbefore, hbehind]

/-- In the gap a semicolon is part of a comment. -/
theorem comment_of_semicolon (hfits : stream.Fits)
    (h : Ran exportsName stream acts stream.size state)
    (hsurrounds : stream.Surrounds before first last after) (hbefore : before < id)
    (hafter : id < after) (hmem : ';' ∈ (state.stream.written id).toList) :
    stream.kind? id = some .comment ∨ stream.kind? id = some .docComment := by
  by_cases hinside : first ≤ id ∧ id ≤ last
  · rw [h.written_of_removed hfits ⟨first, last, hsurrounds.removes, hinside⟩] at hmem
    exact absurd hmem List.not_mem_nil
  · have hid : before < id ∧ id < first ∨ last < id ∧ id < after := by omega
    rw [h.written_around hfits hsurrounds hid] at hmem
    obtain ⟨kind, hkind, htrivia⟩ := hsurrounds.isTrivia hid
    rw [hkind]
    exact (TokenStream.comment_of_semicolon hfits hkind htrivia hmem).imp (congrArg some)
      (congrArg some)

end Rewriting.Ran

/-! ## The law -/

section

variable {exportsName source : String} {script : Script}

/-- **A statement that is removed leaves the trivia around it, and nothing else.** Take any
statement that the rewrite of an accepted script removes, and that has tokens on either side that
are no trivia. Between what the nearest two of them write, the result has the trivia before the
statement and then those behind it, as they were read. No semicolon is put there: one that stands
there is part of a comment. -/
theorem removal_leaves_trivia (h : transform exportsName source = .ok script) :
    ∃ stream state, tokenize source = .ok stream ∧
      stream.classify.rewrite exportsName = .ok state ∧
      ∀ before first last after, stream.classify.Surrounds before first last after →
        script.text = textBetween state.stream.written 0 (before + 1) ++
            (textBetween stream.lexeme (before + 1) first ++
              textBetween stream.lexeme (last + 1) after) ++
            textBetween state.stream.written after stream.size ∧
          ∀ id, before < id → id < after → ';' ∈ (state.stream.written id).toList →
            stream.classify.kind? id = some .comment ∨
              stream.classify.kind? id = some .docComment := by
  obtain ⟨stream, acts, state, haccepted⟩ := accepted_of_transform h
  refine ⟨stream, state, haccepted.tokens, haccepted.rewrites,
    fun before first last after hsurrounds => ⟨?_, fun id hbefore hafter =>
      haccepted.ran.comment_of_semicolon haccepted.fits hsurrounds hbefore hafter⟩⟩
  have hgap := haccepted.ran.textBetween_gap haccepted.fits hsurrounds
  have hopens := hsurrounds.opens.lt
  have hlt := hsurrounds.removes.removal.lt
  have hcloses := hsurrounds.closes.lt
  have hsize := hsurrounds.closes.meaningful.lt_size
  rw [size_classify] at hsize
  rw [lexeme_classify] at hgap
  rw [← hgap, textBetween_append _ (by omega) (by omega),
    textBetween_append _ (by omega) (by omega), haccepted.script, render_eq_textBetween,
    haccepted.ran.same.size, size_classify]

/-- The texts of tokens that continue an expression before them. -/
def continuations : List String := ["(", "[", "+", "-", "*", "/", ",", "."]

/-- The token continues an expression before it, or is the beginning of a template, which does so
too. -/
def TokenStream.Continues (stream : TokenStream) (id : Nat) : Prop :=
  stream.lexeme id ∈ continuations ∨
    stream.kind? id = some .template ∧ (stream.lexeme id).toList.head? = some '\x60'

/-- Where a statement is removed from between the end of another one and a token that would continue
it, a semicolon is written. -/
def KeepsApart (exportsName source : String) : Prop :=
  ∀ script stream state, transform exportsName source = .ok script →
    tokenize source = .ok stream → stream.classify.rewrite exportsName = .ok state →
    ∀ before first last after, stream.classify.Surrounds before first last after →
      stream.lexeme before ∉ [";", "\x7b", "\x7d"] → stream.classify.Continues after →
      ∃ id, before < id ∧ id < after ∧ ';' ∈ (state.stream.written id).toList

end

/-- The statement in the second line is removed, and it stands between a name and a parenthesis.
There are no comments. -/
theorem surrounds_of_three_lines {stream : TokenStream}
    (h : tokenize "a\nimport \x22m\x22\n(b)" = .ok stream) :
    stream.classify.Surrounds 0 2 4 6 ∧ stream.lexeme 0 = "a" ∧ stream.lexeme 6 = "(" ∧
      ∀ id, id < 6 → stream.classify.kind? id ≠ some .comment ∧
        stream.classify.kind? id ≠ some .docComment := by
  have hread : (tokenize "a\nimport \x22m\x22\n(b)").toOption.map (fun stream =>
      (stream.classify.itemsFrom 0, (List.range 6).map stream.classify.kind?)) =
      some ([⟨0, .identifier, "a", 0⟩, ⟨2, .keyword, "import", 2⟩, ⟨4, .string, "\x22m\x22", 9⟩,
        ⟨6, .bracket, "(", 13⟩, ⟨7, .identifier, "b", 14⟩, ⟨8, .bracket, ")", 15⟩],
        [some .identifier, some .whitespace, some .keyword, some .whitespace, some .string,
          some .whitespace]) := by decide +kernel
  rw [h] at hread
  obtain ⟨hitems, hkinds⟩ := Prod.mk.inj (Option.some.inj hread)
  obtain ⟨-, hname, hbehindName, -⟩ := itemsFrom_split [] hitems
  obtain ⟨-, hword, hbehindWord, hbefore⟩ := itemsFrom_split [_] hitems
  obtain ⟨-, hpath, hbehindPath, -⟩ := itemsFrom_split [] hbehindWord
  obtain ⟨-, hopen, -, -⟩ := itemsFrom_split [] hbehindPath
  -- before the import there is a name, so the pass comes to it token by token
  have hreached : stream.classify.Reached 2 := by
    rcases stream.classify.reached_or_removed 2 with hreached | ⟨start, stop, hremoves, hlt, -⟩
    · exact hreached
    · obtain ⟨item, hitem⟩ := isMeaningful_iff.mp hremoves.removal.isMeaningful_first
      have hmem := hbefore start item (Nat.zero_le start) hlt hitem
      rw [List.mem_singleton.mp hmem] at hitem
      have hkind : stream.classify.kind? start = some .keyword :=
        hremoves.removal.isKeyword.elim (·.kind) (·.kind)
      exact absurd ((kind?_of_meaningful? hitem).symm.trans hkind) (by decide)
  have hremoval : stream.classify.Removal 2 4 := by
    have hparts : stream.classify.itemsFrom (2 + 1) = [] ++ _ :: _ := hbehindWord
    exact .importing ⟨kind?_of_meaningful? hword, lexeme_of_meaningful? hword⟩ hparts .nil rfl
  rw [← lexeme_classify stream]
  refine ⟨⟨⟨hreached, hremoval⟩, isMeaningful_iff.mpr ⟨_, hname⟩, isNext_of_itemsFrom hbehindName,
    isNext_of_itemsFrom hbehindPath⟩, lexeme_of_meaningful? hname, lexeme_of_meaningful? hopen, ?_⟩
  intro id hid
  have hmem : stream.classify.kind? id ∈ (List.range 6).map stream.classify.kind? :=
    List.mem_map_of_mem (List.mem_range.mpr hid)
  rw [hkinds] at hmem
  constructor
  · intro hkind
    exact absurd (hkind ▸ hmem) (by decide)
  · intro hkind
    exact absurd (hkind ▸ hmem) (by decide)

/-- Two line breaks are left of an import between two lines. -/
theorem import_between_lines_leaves_breaks :
    ∃ stream state, tokenize "a\nimport \x22m\x22\n(b)" = .ok stream ∧
      stream.classify.rewrite "exports" = .ok state ∧
      "a\n\n(b)" = textBetween state.stream.written 0 1 ++
        (textBetween stream.lexeme 1 2 ++ textBetween stream.lexeme 5 6) ++
        textBetween state.stream.written 6 stream.size := by
  obtain ⟨stream, state, htokens, hrewrites, hlaw⟩ :=
    removal_leaves_trivia (eq_ok_of_toOption (by decide +kernel) :
      transform "exports" "a\nimport \x22m\x22\n(b)" = .ok ⟨"a\n\n(b)", [("m", [])], []⟩)
  have hsurrounds := (surrounds_of_three_lines htokens).1
  exact ⟨stream, state, htokens, hrewrites, (hlaw 0 2 4 6 hsurrounds).1⟩

/-- **Statements can join**: behind the name in the first line the parenthesis in the last one opens
a call, once the import between them is gone. -/
theorem statements_can_join : ¬ ∀ exportsName source, KeepsApart exportsName source := by
  intro hkeeps
  have hscript : transform "exports" "a\nimport \x22m\x22\n(b)" =
      .ok ⟨"a\n\n(b)", [("m", [])], []⟩ := eq_ok_of_toOption (by decide +kernel)
  obtain ⟨stream, acts, state, haccepted⟩ := accepted_of_transform hscript
  obtain ⟨hsurrounds, hname, hopen, hplain⟩ := surrounds_of_three_lines haccepted.tokens
  have hend : stream.lexeme 0 ∉ [";", "\x7b", "\x7d"] := by
    rw [hname]
    decide
  have hcontinues : stream.classify.Continues 6 := by
    left
    rw [lexeme_classify, hopen]
    decide
  obtain ⟨id, hbefore, hafter, hmem⟩ := hkeeps "exports" _ _ stream state hscript
    haccepted.tokens haccepted.rewrites 0 2 4 6 hsurrounds hend hcontinues
  have hcomment := haccepted.ran.comment_of_semicolon haccepted.fits hsurrounds hbefore hafter hmem
  exact hcomment.elim (hplain id hafter).1 (hplain id hafter).2

end ScriptLink
