import ScriptLink.Proofs.Rewrite

/-!
# What the pass leaves behind

The run of the pass says which act writes a token last. Here that is turned into what the tokens
write in the end: most of them what they read, and the words of the module syntax nothing at all.

* **`Accepted`** — what is known of a source that the pass accepts.
* **`TokenStream.Touched`** — the tokens that an act can write to, and `rewrite_frame`: all others
  come back as they were.
* **`TokenStream.Inert`** — streams whose keywords ask for nothing. `transform_of_inert`: such a
  script comes back as it was.
* **`Rewriting.Ran.written_of_export`** — what an export writes behind itself is not overwritten,
  unless the token does so itself. With it `no_module_syntax` follows keyword by keyword.
-/

namespace ScriptLink

open TokenStream Rewriting

variable {exportsName source : String} {stream : TokenStream} {script : Script} {state : Rewriting}
  {acts : Nat → Act}

/-! ## Streams of scripts -/

theorem linked_of_tokenize (h : tokenize source = .ok stream) : stream.Linked := by
  obtain ⟨found, -, rfl⟩ := pieces_of_tokenize h
  exact linked_ofMarks _ _

/-- Nothing is replaced in a new stream. -/
theorem replacement?_classify (h : tokenize source = .ok stream) (id : Nat) :
    stream.classify.replacement? id = none := by
  have hnew : ∀ replacement ∈ stream.classify.tokens.toList.map Token.replacement,
      replacement = none := by
    rw [map_classify (fun _ _ => rfl)]
    obtain ⟨found, -, rfl⟩ := pieces_of_tokenize h
    have hnone : (link source 0 none (Piece.locate 0 found)).1.map Token.replacement =
        (Piece.locate 0 found).map fun _ => none := link_map (fun _ _ _ => rfl) 0 none _
    show ∀ replacement ∈ (link source 0 none (Piece.locate 0 found)).1.map Token.replacement, _
    rw [hnone]
    simp
  unfold replacement?
  cases htoken : stream.classify.get? id with
  | none => rfl
  | some token =>
    obtain ⟨hid, rfl⟩ := Array.getElem?_eq_some_iff.mp htoken
    exact hnew _ (List.mem_map_of_mem (Array.getElem_mem_toList hid))

/-- The output is what the tokens write, one after the other. -/
theorem render_eq (stream : TokenStream) :
    stream.render = String.join ((List.range stream.size).map stream.written) := by
  unfold render
  refine congrArg String.join (List.ext_getElem? fun id => ?_)
  rw [List.getElem?_map, List.getElem?_map, Array.getElem?_toList]
  by_cases hid : id < stream.size
  · rw [List.getElem?_range hid]
    have htoken : stream.get? id = some stream.tokens[id] := Array.getElem?_eq_getElem hid
    show Option.map Token.written (stream.get? id) = some (stream.written id)
    unfold written replacement? lexeme
    rw [htoken]
    rfl
  · have hnone : stream.tokens[id]? = none := Array.getElem?_eq_none (Nat.le_of_not_lt hid)
    have hrange : (List.range stream.size)[id]? = none :=
      List.getElem?_eq_none (by rw [List.length_range]; exact Nat.le_of_not_lt hid)
    rw [hnone, hrange]
    rfl

/-- What is known of a source that the pass accepts: its stream, the state behind the last token,
and the acts that were performed. -/
structure Accepted (exportsName source : String) (script : Script) (stream : TokenStream)
    (acts : Nat → Act) (state : Rewriting) : Prop where
  tokens : tokenize source = .ok stream
  rewrites : stream.classify.rewrite exportsName = .ok state
  script : script = ⟨state.stream.render, state.imports, state.exports⟩
  fits : stream.classify.Fits
  linked : stream.classify.Linked
  ran : Ran exportsName stream.classify acts stream.classify.size state

theorem accepted_of_transform (h : transform exportsName source = .ok script) :
    ∃ stream acts state, Accepted exportsName source script stream acts state := by
  unfold transform at h
  split at h
  · exact absurd h (by simp)
  · next stream hstream =>
    split at h
    · exact absurd h (by simp)
    · next state hstate =>
      have hfits := fits_classify (fits_of_tokenize hstream).1
      have hlinked := linked_classify (linked_of_tokenize hstream)
      obtain ⟨acts, hran⟩ := ran_of_foldlM hfits hlinked (replacement?_classify hstream) _
        (Nat.le_refl _) hstate
      exact ⟨stream, acts, state, hstream, hstate, (Except.ok.inj h).symm, hfits, hlinked, hran⟩

/-- A keyword is one of the tokens. -/
theorem TokenStream.IsKeyword.mem {id : Nat} {word : String} (h : stream.IsKeyword id word) :
    (TokenKind.keyword, word) ∈
      stream.tokens.toList.map fun token => (token.kind, token.lexeme) := by
  obtain ⟨token, htoken, hkind⟩ := Option.map_eq_some_iff.mp h.kind
  have hreads : token.lexeme = word := by
    have hreads := h.reads
    unfold lexeme at hreads
    rw [htoken] at hreads
    exact hreads
  obtain ⟨hid, rfl⟩ := Array.getElem?_eq_some_iff.mp htoken
  exact List.mem_map.mpr ⟨_, Array.getElem_mem_toList hid, Prod.ext hkind hreads⟩

/-! ## What can be written -/

namespace TokenStream

variable {id j first last : Nat} {act : Act} {text : String}

/-- The token directly follows the keyword of an export and `default`. -/
def IsTarget (stream : TokenStream) (id : Nat) : Prop :=
  ∃ first keyword target rest, stream.IsKeyword first "export" ∧
    stream.itemsFrom (first + 1) = keyword :: target :: rest ∧ keyword.text = defaultName ∧
    target.id = id

/-- The token belongs to a statement that the pass removes. -/
def IsRemoved (stream : TokenStream) (id : Nat) : Prop :=
  ∃ first last, stream.Removes first last ∧ first ≤ id ∧ id ≤ last

/-- The tokens for which the pass may write something else. -/
inductive Touched (stream : TokenStream) : Nat → Prop where
  | shortened {id : Nat} (hword : stream.IsKeyword id "let" ∨ stream.IsKeyword id "const") :
      Touched stream id
  | removed {id : Nat} (hremoved : stream.IsRemoved id) : Touched stream id
  | exporting {id : Nat} (hword : stream.IsKeyword id "export") : Touched stream id
  | default {first : Nat} {keyword : Item} {rest : List Item}
      (hword : stream.IsKeyword first "export")
      (hitems : stream.itemsFrom (first + 1) = keyword :: rest)
      (hdefault : keyword.text = defaultName) : Touched stream keyword.id
  | target {id : Nat} (htarget : stream.IsTarget id) : Touched stream id
  | declared {first : Nat} {header rest : List Item} {name : Item}
      (hword : stream.IsKeyword first "export")
      (hitems : stream.itemsFrom (first + 1) = header ++ name :: rest) (hheader : IsHeader header)
      (hname : name.kind = .identifier) : Touched stream name.id

/-- What an act writes to is touched. -/
theorem Does.touched (h : stream.Does id act) (hreached : stream.Reached id)
    (hwrites : act.writes exportsName id j = some text) : stream.Touched j := by
  cases h with
  | idle => exact absurd hwrites (by simp [Act.writes])
  | shorten hword =>
    simp only [Act.writes] at hwrites
    split at hwrites
    · next heq => exact heq ▸ .shortened hword
    · exact absurd hwrites (by simp)
  | remove hremoval =>
    simp only [Act.writes] at hwrites
    split at hwrites
    · next hrange => exact .removed ⟨id, _, ⟨hreached, hremoval⟩, hrange⟩
    · exact absurd hwrites (by simp)
  | @assign keyword target rest hword hitems hdefault =>
    simp only [Act.writes] at hwrites
    split at hwrites
    · next heq => exact .target ⟨id, keyword, target, rest, hword, hitems, hdefault, heq.symm⟩
    · split at hwrites
      · next heq => exact heq ▸ .default hword hitems hdefault
      · split at hwrites
        · next heq => exact heq ▸ .exporting hword
        · exact absurd hwrites (by simp)
  | @declare header rest name hword hitems hheader hname =>
    simp only [Act.writes] at hwrites
    split at hwrites
    · next heq => exact heq ▸ .declared hword hitems hheader hname
    · split at hwrites
      · next heq => exact heq ▸ .exporting hword
      · exact absurd hwrites (by simp)

/-- Only removed statements take trivia along. -/
theorem Touched.removed_of_trivia {kind : TokenKind} (h : stream.Touched id)
    (hkind : stream.kind? id = some kind) (htrivia : kind.isTrivia = true) :
    stream.IsRemoved id := by
  have hword {word : String} : ¬ stream.IsKeyword id word := fun hword => by
    obtain rfl := Option.some.inj (hkind.symm.trans hword.kind)
    exact absurd htrivia (by decide)
  have hitem {item : Item} (hmeans : stream.meaningful? item.id = some item) : item.id ≠ id := by
    rintro rfl
    obtain rfl := Option.some.inj (hkind.symm.trans (kind?_of_meaningful? hmeans))
    rw [isTrivia_of_meaningful? hmeans] at htrivia
    exact absurd htrivia (by decide)
  cases h with
  | shortened h => exact h.elim (absurd · hword) (absurd · hword)
  | removed hremoved => exact hremoved
  | exporting h => exact absurd h hword
  | default _ hitems _ => exact absurd rfl (hitem (itemsFrom_split [] hitems).2.1)
  | target htarget =>
    obtain ⟨first, keyword, target, rest, -, hitems, -, rfl⟩ := htarget
    exact absurd rfl (hitem (itemsFrom_split [keyword] hitems).2.1)
  | declared _ hitems _ _ => exact absurd rfl (hitem (itemsFrom_split _ hitems).2.1)

end TokenStream

/-! ## Streams without anything to do -/

/-- No keyword of the stream asks for anything. -/
structure TokenStream.Inert (stream : TokenStream) : Prop where
  words : ∀ id, ∀ word ∈ ["let", "const", "export"], ¬ stream.IsKeyword id word
  imports : ∀ id, stream.IsKeyword id "import" → stream.IsDynamic id

theorem importStatement_of_dynamic {offset : Nat} {next : Item} {rest : List Item}
    (h : next.text = "(" ∨ next.text = ".") : importStatement offset (next :: rest) = .ok none := by
  unfold importStatement
  rw [if_pos]
  rcases h with h | h
  · exact Bool.or_eq_true_iff.mpr (.inl (beq_iff_eq.mpr h))
  · exact Bool.or_eq_true_iff.mpr (.inr (beq_iff_eq.mpr h))

theorem visit_of_inert (hinert : stream.Inert) (hlinked : stream.Linked) {id : Nat}
    (hid : id < stream.size) :
    visit exportsName ⟨stream, [], [], 0⟩ id = .ok ⟨stream, [], [], 0⟩ := by
  unfold visit
  rw [if_neg (Nat.not_lt_zero id)]
  split
  · next hkind =>
    have hword (word : String) (hmem : word ∈ ["let", "const", "export"]) :
        stream.lexeme id ≠ word := fun hreads => hinert.words id word hmem ⟨hkind, hreads⟩
    unfold visitKeyword
    dsimp only
    rw [if_neg (not_or.mpr ⟨hword "let" (by simp), hword "const" (by simp)⟩),
      if_neg (hword "export" (by simp))]
    split
    · next himport =>
      obtain ⟨next, rest, hitems, hnext⟩ := hinert.imports id ⟨hkind, himport⟩
      rw [itemsAfter_eq hlinked hid, hitems, importStatement_of_dynamic hnext]
      rfl
    · rfl
  · rfl

theorem rewrite_of_inert (hinert : stream.Inert) (hlinked : stream.Linked) :
    stream.rewrite exportsName = .ok ⟨stream, [], [], 0⟩ := by
  have hall : ∀ ids : List Nat, (∀ id ∈ ids, id < stream.size) →
      ids.foldlM (visit exportsName) ⟨stream, [], [], 0⟩ = .ok ⟨stream, [], [], 0⟩ := by
    intro ids
    induction ids with
    | nil => exact fun _ => rfl
    | cons id rest ih =>
      intro hids
      rw [List.foldlM_cons, visit_of_inert hinert hlinked (hids id List.mem_cons_self)]
      exact ih fun id hid => hids id (List.mem_cons_of_mem _ hid)
  exact hall _ fun id hid => List.mem_range.mp hid

/-- A script in which there is nothing to do comes back as it is. -/
theorem transform_of_inert (hstream : tokenize source = .ok stream)
    (hinert : stream.classify.Inert) : transform exportsName source = .ok ⟨source, [], []⟩ := by
  have hrender : stream.classify.render = source := by
    rw [render_classify]
    obtain ⟨found, hpieces, rfl⟩ := pieces_of_tokenize hstream
    exact join_of_pieces (fun _ _ _ => rfl) hpieces
  unfold transform
  rw [hstream]
  dsimp only
  rw [rewrite_of_inert hinert (linked_classify (linked_of_tokenize hstream))]
  dsimp only
  rw [hrender]

/-! ## The laws -/

theorem Rewriting.Ran.written_eq {count : Nat} (h : Ran exportsName stream acts count state)
    (id : Nat) :
    state.stream.written id = (state.stream.replacement? id).getD (stream.lexeme id) := by
  unfold TokenStream.written
  rw [h.same.lexeme]

/-- A token that is not touched is written as it was read. -/
theorem Rewriting.Ran.written_of_untouched
    (h : Ran exportsName stream acts stream.size state) {id : Nat} (hid : id < stream.size)
    (huntouched : ¬ stream.Touched id) :
    state.stream.written id = stream.lexeme id := by
  rw [h.written_eq, h.unwritten id hid fun k hk hreached => ?_, Option.getD_none]
  cases hwrites : (acts k).writes exportsName k id with
  | none => rfl
  | some text => exact absurd ((h.does k hk hreached).touched hreached hwrites) huntouched

/-- **The rewrite touches nothing else.** The text of an accepted script is what its tokens write,
one after the other. A token writes what it read unless it is one of the `Touched`: a keyword `let`,
`const` or `export`, the `default` behind an export and the token that follows the two, the name of
an exported declaration, and all that stands in a statement that is removed. White space and
comments outside of such statements stay as they are. A text that is taken apart, and in which none
of `let`, `const`, `import` and `export` is a keyword, is accepted as it stands, and nothing is
recorded of it. -/
theorem rewrite_frame :
    (∀ exportsName source script, transform exportsName source = .ok script →
      ∃ stream state, tokenize source = .ok stream ∧
        stream.classify.rewrite exportsName = .ok state ∧
        script.text = String.join ((List.range stream.size).map state.stream.written) ∧
        (∀ id, id < stream.size → ¬ stream.classify.Touched id →
          state.stream.written id = stream.lexeme id) ∧
        (∀ id kind, stream.kind? id = some kind → kind.isTrivia = true →
          ¬ stream.classify.IsRemoved id → state.stream.written id = stream.lexeme id)) ∧
    (∀ exportsName source stream, tokenize source = .ok stream →
      (∀ id, ∀ word ∈ ["let", "const", "import", "export"], ¬ stream.classify.IsKeyword id word) →
      transform exportsName source = .ok ⟨source, [], []⟩) := by
  constructor
  · intro exportsName source script h
    obtain ⟨stream, acts, state, haccepted⟩ := accepted_of_transform h
    have huntouched : ∀ id, id < stream.size → ¬ stream.classify.Touched id →
        state.stream.written id = stream.lexeme id := by
      intro id hid hnot
      rw [haccepted.ran.written_of_untouched (by rw [size_classify]; exact hid) hnot,
        lexeme_classify]
    refine ⟨stream, state, haccepted.tokens, haccepted.rewrites, ?_, huntouched, ?_⟩
    · rw [haccepted.script, render_eq, haccepted.ran.same.size, size_classify]
    · intro id kind hkind htrivia hnot
      have hid : id < stream.size := lt_size_of_kind? hkind
      have hkept : stream.classify.kind? id = some kind := by
        rw [kind?_classify, if_neg, hkind]
        intro hpromoted
        rcases kind?_of_isPromoted hpromoted with h | h <;>
          (obtain rfl := Option.some.inj (hkind.symm.trans h); exact absurd htrivia (by decide))
      exact huntouched id hid fun htouched => hnot (htouched.removed_of_trivia hkept htrivia)
  · intro exportsName source stream hstream hwords
    refine transform_of_inert hstream ⟨fun id word hmem => hwords id word ?_, fun id hword =>
      absurd hword (hwords id "import" (by simp))⟩
    simp only [List.mem_cons, List.not_mem_nil, or_false] at hmem ⊢
    rcases hmem with rfl | rfl | rfl <;> simp

/-- A comment behind a declaration, and a script without keywords. -/
theorem comment_is_kept :
    (∃ stream state, tokenize "let a; // b" = .ok stream ∧
      stream.classify.rewrite "exports" = .ok state ∧ stream.kind? 5 = some .comment ∧
      state.stream.written 5 = "// b") ∧
    transform "exports" "a+b" = .ok ⟨"a+b", [], []⟩ := by
  constructor
  · obtain ⟨stream, state, htokens, hrewrites, -, -, htrivia⟩ :=
      rewrite_frame.1 "exports" "let a; // b" ⟨"var a; // b", [], []⟩
        (eq_ok_of_toOption (by decide +kernel))
    have hread : (tokenize "let a; // b").toOption.map (fun stream =>
        (stream.kind? 5, stream.lexeme 5,
          stream.classify.tokens.toList.map fun token => (token.kind, token.lexeme))) =
        some (some .comment, "// b", [(.keyword, "let"), (.whitespace, " "), (.identifier, "a"),
          (.delimiter, ";"), (.whitespace, " "), (.comment, "// b")]) := by decide +kernel
    rw [htokens] at hread
    obtain ⟨hkind, hrest⟩ := Prod.mk.inj (Option.some.inj hread)
    obtain ⟨hlexeme, hwords⟩ := Prod.mk.inj hrest
    refine ⟨stream, state, htokens, hrewrites, hkind, ?_⟩
    rw [htrivia 5 .comment hkind rfl, hlexeme]
    rintro ⟨first, last, ⟨-, hremoval⟩, -⟩
    -- the one keyword begins no statement that is removed
    cases hremoval with
    | importing hword _ _ _ => exact absurd (hwords ▸ hword.mem) (by decide)
    | exporting hword _ _ _ _ => exact absurd (hwords ▸ hword.mem) (by decide)
  · have hread : (tokenize "a+b").toOption.map (fun stream =>
        stream.classify.tokens.toList.map fun token => (token.kind, token.lexeme)) =
        some [(.identifier, "a"), (.operator, "+"), (.identifier, "b")] := by decide +kernel
    obtain ⟨stream, hstream, hwords⟩ := Option.map_eq_some_iff.mp hread
    refine rewrite_frame.2 "exports" "a+b" stream (eq_ok_of_toOption hstream)
      fun id word _ hword => ?_
    exact absurd (hwords ▸ hword.mem) (by simp)

/-! ## What keywords become -/

namespace TokenStream

variable {id first last : Nat} {act : Act}

/-- The keyword of an export writes nothing in its own place. -/
theorem Does.writes_of_export (h : stream.Does id act) (hword : stream.IsKeyword id "export") :
    act.writes exportsName id id = some "" := by
  cases h with
  | idle hother _ => exact absurd hword (hother "export" (by simp))
  | shorten hshort =>
    rcases hshort with hshort | hshort <;> exact absurd (hshort.unique hword) (by decide)
  | remove hremoval =>
    rw [Act.writes, if_pos ⟨Nat.le_refl id, Nat.le_of_lt hremoval.lt⟩]
  | @assign keyword target rest _ hitems _ =>
    have hkeyword := (itemsFrom_split [] hitems).1
    have htarget := (itemsFrom_split [keyword] hitems).1
    rw [Act.writes, if_neg (by omega), if_neg (by omega), if_pos rfl]
  | @declare header rest name _ hitems _ _ =>
    have hname := (itemsFrom_split _ hitems).1
    rw [Act.writes, if_neg (by omega), if_pos rfl]

theorem Does.eq_shorten (h : stream.Does id act)
    (hword : stream.IsKeyword id "let" ∨ stream.IsKeyword id "const") : act = .shorten := by
  have hne {word : String} (hother : stream.IsKeyword id word) : word = "let" ∨ word = "const" :=
    hword.imp hother.unique hother.unique
  cases h with
  | shorten _ => rfl
  | idle hother _ =>
    exact hword.elim (absurd · (hother "let" (by simp))) (absurd · (hother "const" (by simp)))
  | remove hremoval =>
    cases hremoval with
    | importing hword' _ _ _ => exact absurd (hne hword') (by decide)
    | exporting hword' _ _ _ _ => exact absurd (hne hword') (by decide)
  | assign hword' _ _ => exact absurd (hne hword') (by decide)
  | declare hword' _ _ _ => exact absurd (hne hword') (by decide)

/-- An import is removed or an expression. -/
theorem Does.import_cases (h : stream.Does id act) (hword : stream.IsKeyword id "import") :
    (act = .idle ∧ stream.IsDynamic id) ∨ ∃ last, stream.Removal id last := by
  cases h with
  | idle _ himport => exact .inl ⟨rfl, himport hword⟩
  | remove hremoval => exact .inr ⟨_, hremoval⟩
  | shorten hshort =>
    rcases hshort with hshort | hshort <;> exact absurd (hshort.unique hword) (by decide)
  | assign hword' _ _ => exact absurd (hword.unique hword') (by decide)
  | declare hword' _ _ _ => exact absurd (hword.unique hword') (by decide)

end TokenStream

namespace Rewriting.Ran

variable {id j first last : Nat} {text : String}

theorem lt_size_of_isKeyword {word : String} (h : stream.IsKeyword id word) : id < stream.size :=
  lt_size_of_kind? h.kind

/-- A token that writes to itself has the last word. -/
theorem written_of_own (h : Ran exportsName stream acts stream.size state) (hid : id < stream.size)
    (hreached : stream.Reached id) (hwrites : (acts id).writes exportsName id id = some text) :
    state.stream.written id = text := by
  rw [h.written_eq, h.written id id text hid hid hreached hwrites, Option.getD_some]
  intro later hlt hlater hreached'
  cases hnone : (acts later).writes exportsName later id with
  | none => rfl
  | some other => exact absurd ((h.does later hlater hreached').le_of_writes hnone) (by omega)

/-- **A statement that is removed writes nothing.** -/
theorem written_of_removed (hfits : stream.Fits)
    (h : Ran exportsName stream acts stream.size state) (hremoved : stream.IsRemoved id) :
    state.stream.written id = "" := by
  obtain ⟨first, last, hremoves, hfirst, hlast⟩ := hremoved
  have hsize := hremoves.removal.lt_size
  have hact := (h.does first (by omega) hremoves.reached).eq_remove hfits hremoves.removal
  have hwrites : (acts first).writes exportsName first id = some "" := by
    rw [hact, Act.writes, if_pos ⟨hfirst, hlast⟩]
  rw [h.written_eq, h.written first id "" (by omega) (by omega) hremoves.reached hwrites,
    Option.getD_some]
  intro later hlt hlater hreached
  cases hnone : (acts later).writes exportsName later id with
  | none => rfl
  | some other =>
    have hle := (h.does later hlater hreached).le_of_writes hnone
    have hbehind := hremoves.lt_of_reached hfits hreached hlt
    omega

/-- What an export writes to a token behind it stays, unless that token is removed or writes to
itself: nothing in between is an export. -/
theorem written_of_export (hfits : stream.Fits)
    (h : Ran exportsName stream acts stream.size state) (body : List Item) {rest : List Item}
    {item : Item} (hreached : stream.Reached first)
    (hitems : stream.itemsFrom (first + 1) = body ++ item :: rest)
    (hbody : ∀ other ∈ body, other.text ≠ "export")
    (hwrites : (acts first).writes exportsName first item.id = some text)
    (hitem : stream.Reached item.id)
    (hown : (acts item.id).writes exportsName item.id item.id = none) :
    state.stream.written item.id = text := by
  obtain ⟨hlt, hmeans, -, hbetween⟩ := itemsFrom_split _ hitems
  have hsize := lt_size_of_meaningful? hmeans
  rw [h.written_eq, h.written first item.id text (by omega) hsize hreached hwrites,
    Option.getD_some]
  intro later hfirst hlater hreached'
  cases hnone : (acts later).writes exportsName later item.id with
  | none => rfl
  | some other =>
    have hdoes := h.does later hlater hreached'
    have hle := hdoes.le_of_writes hnone
    have hne : later ≠ item.id := fun heq => by
      rw [heq, hown] at hnone
      exact absurd hnone (by simp)
    -- the other writer is another export, or a statement around the token
    have hexport : stream.IsKeyword later "export" := by
      generalize acts later = act at hdoes hnone
      cases hdoes with
      | idle _ _ => exact absurd hnone (by simp [Act.writes])
      | shorten _ =>
        rw [Act.writes, if_neg (Ne.symm hne)] at hnone
        exact absurd hnone (by simp)
      | @remove last hremoval =>
        simp only [Act.writes] at hnone
        split at hnone
        · next hrange =>
          have := Removes.lt_of_reached hfits ⟨hreached', hremoval⟩ hitem (by omega)
          omega
        · exact absurd hnone (by simp)
      | assign hword _ _ => exact hword
      | declare hword _ _ _ => exact hword
    obtain ⟨found, hfound⟩ := isMeaningful_iff.mp ⟨.keyword, hexport.kind, rfl⟩
    have hmem := hbetween later found (by omega) (by omega) hfound
    exact absurd ((lexeme_of_meaningful? hfound).symm.trans hexport.reads) (hbody found hmem)

end Rewriting.Ran

namespace TokenStream

variable {id first : Nat} {act : Act}

theorem Does.eq_assign (h : stream.Does first act) {keyword target : Item} {rest : List Item}
    (hword : stream.IsKeyword first "export")
    (hitems : stream.itemsFrom (first + 1) = keyword :: target :: rest)
    (hdefault : keyword.text = defaultName) : act = .assign keyword.id target := by
  cases h with
  | idle hother _ => exact absurd hword (hother "export" (by simp))
  | shorten hshort =>
    rcases hshort with hshort | hshort <;> exact absurd (hshort.unique hword) (by decide)
  | remove hremoval =>
    cases hremoval with
    | importing hword' _ _ _ => exact absurd (hword.unique hword') (by decide)
    | exporting _ hitems' hopened _ _ =>
      obtain ⟨rfl, -⟩ := List.cons.inj (hitems.symm.trans hitems')
      exact absurd (hdefault.symm.trans hopened) (by decide)
  | assign _ hitems' _ =>
    obtain ⟨rfl, hrest⟩ := List.cons.inj (hitems.symm.trans hitems')
    obtain ⟨rfl, -⟩ := List.cons.inj hrest
    rfl
  | declare _ hitems' hheader _ =>
    obtain ⟨word, later, rfl, hfirst⟩ := hheader.cons
    obtain ⟨rfl, -⟩ := List.cons.inj (hitems.symm.trans hitems')
    rw [hdefault] at hfirst
    exact absurd hfirst (by decide)

/-- The pass looks at an expression that begins with `import`. -/
theorem reached_of_dynamic (hfits : stream.Fits) (hword : stream.IsKeyword id "import")
    (hdynamic : stream.IsDynamic id) : stream.Reached id := by
  rcases stream.reached_or_removed id with hreached | ⟨first, last, hremoves, hfirst, hlast⟩
  · exact hreached
  · exact absurd hdynamic
      (hremoves.removal.not_dynamic hfits (Nat.le_of_lt hfirst) hlast hword)

/-- If the pass looks at the target of a default export, it has looked at the export: no statement
that is removed ends with `export` or `default`. -/
theorem reached_of_target (hfits : stream.Fits) {keyword target : Item} {rest : List Item}
    (hword : stream.IsKeyword first "export")
    (hitems : stream.itemsFrom (first + 1) = keyword :: target :: rest)
    (hdefault : keyword.text = defaultName) (htarget : stream.Reached target.id) :
    stream.Reached first := by
  rcases stream.reached_or_removed first with hreached | ⟨start, last, hremoves, hstart, hlast⟩
  · exact hreached
  · obtain ⟨hlt, -, -, hbetween⟩ := itemsFrom_split [keyword] hitems
    have hbehind := hremoves.lt_of_reached hfits htarget (by omega)
    obtain ⟨body, closing, after, hsplit, rfl, hclosing, -⟩ := hremoves.removal.parts
    have hmeans := (itemsFrom_split _ hsplit).2.1
    have hfit : closing.Fits :=
      fits_of_mem hfits (hsplit ▸ List.mem_append_right _ List.mem_cons_self)
    have htext : closing.text = "export" ∨ closing.text = defaultName := by
      rcases Nat.lt_or_eq_of_le hlast with hlt' | rfl
      · have hmem := hbetween closing.id closing (by omega) hbehind hmeans
        obtain rfl := List.mem_singleton.mp hmem
        exact .inr hdefault
      · exact .inl ((lexeme_of_meaningful? hmeans).symm.trans hword.reads)
    rcases hclosing with hkind | hbrace | hsemicolon
    · refine absurd hkind (Item.ne_string_of_text hfit ?_)
      rcases htext with htext | htext <;> rw [htext] <;> decide
    · rw [hbrace] at htext
      exact absurd htext (by decide)
    · rw [hsemicolon] at htext
      exact absurd htext (by decide)

end TokenStream

namespace Rewriting.Ran

variable {id : Nat}

theorem written_of_exporting (hfits : stream.Fits)
    (h : Ran exportsName stream acts stream.size state) (hword : stream.IsKeyword id "export") :
    state.stream.written id = "" := by
  have hid := lt_size_of_isKeyword hword
  rcases stream.reached_or_removed id with hreached | ⟨first, last, hremoves, hfirst, hlast⟩
  · exact h.written_of_own hid hreached ((h.does id hid hreached).writes_of_export hword)
  · exact h.written_of_removed hfits ⟨first, last, hremoves, Nat.le_of_lt hfirst, hlast⟩

theorem written_of_shortened (h : Ran exportsName stream acts stream.size state)
    (hword : stream.IsKeyword id "let" ∨ stream.IsKeyword id "const")
    (hreached : stream.Reached id) : state.stream.written id = "var" := by
  have hid : id < stream.size := hword.elim lt_size_of_isKeyword lt_size_of_isKeyword
  refine h.written_of_own hid hreached ?_
  rw [(h.does id hid hreached).eq_shorten hword, Act.writes, if_pos rfl]

theorem written_of_static (hfits : stream.Fits)
    (h : Ran exportsName stream acts stream.size state) (hword : stream.IsKeyword id "import")
    (hstatic : ¬ stream.IsDynamic id) : state.stream.written id = "" := by
  have hid := lt_size_of_isKeyword hword
  rcases stream.reached_or_removed id with hreached | ⟨first, last, hremoves, hfirst, hlast⟩
  · rcases (h.does id hid hreached).import_cases hword with ⟨-, hdynamic⟩ | ⟨last, hremoval⟩
    · exact absurd hdynamic hstatic
    · exact h.written_of_removed hfits
        ⟨id, last, ⟨hreached, hremoval⟩, Nat.le_refl id, Nat.le_of_lt hremoval.lt⟩
  · exact h.written_of_removed hfits ⟨first, last, hremoves, Nat.le_of_lt hfirst, hlast⟩

/-- An expression that begins with `import` stays, behind the assignment if it is the target of the
default export. -/
theorem written_of_dynamic (hfits : stream.Fits)
    (h : Ran exportsName stream acts stream.size state) (hword : stream.IsKeyword id "import")
    (hdynamic : stream.IsDynamic id) :
    (stream.IsTarget id → state.stream.written id = Act.assigned exportsName "import") ∧
      (¬ stream.IsTarget id → state.stream.written id = "import") := by
  have hid := lt_size_of_isKeyword hword
  have hreached := reached_of_dynamic hfits hword hdynamic
  constructor
  · rintro ⟨first, keyword, target, rest, hexport, hitems, hdefault, rfl⟩
    have hfirst := reached_of_target hfits hexport hitems hdefault hreached
    have htext : target.text = "import" :=
      (lexeme_of_meaningful? (itemsFrom_split [keyword] hitems).2.1).symm.trans hword.reads
    refine h.written_of_export hfits [keyword] hfirst hitems ?_ ?_ hreached ?_
    · intro other hmem
      obtain rfl := List.mem_singleton.mp hmem
      rw [hdefault]
      decide
    · have hsize := lt_size_of_isKeyword hexport
      rw [(h.does first hsize hfirst).eq_assign hexport hitems hdefault, Act.writes, if_pos rfl,
        htext]
    · rcases (h.does target.id hid hreached).import_cases hword with ⟨hidle, -⟩ | ⟨last, hremoval⟩
      · rw [hidle, Act.writes]
      · exact absurd hdynamic
          (hremoval.not_dynamic hfits (Nat.le_refl _) (Nat.le_of_lt hremoval.lt) hword)
  · intro hno
    rw [h.written_of_untouched hid, hword.reads]
    intro htouched
    cases htouched with
    | shortened hshort =>
      rcases hshort with hshort | hshort <;> exact absurd (hshort.unique hword) (by decide)
    | removed hremoved =>
      obtain ⟨first, last, hremoves, hfirst, hlast⟩ := hremoved
      exact hremoves.removal.not_dynamic hfits hfirst hlast hword hdynamic
    | exporting hexport => exact absurd (hexport.unique hword) (by decide)
    | default _ hitems hdefault =>
      have hmeans := (itemsFrom_split [] hitems).2.1
      have htext := (lexeme_of_meaningful? hmeans).symm.trans hword.reads
      rw [hdefault] at htext
      exact absurd htext (by decide)
    | target htarget => exact hno htarget
    | declared _ hitems _ hname =>
      have hkind := (kind?_of_meaningful? (itemsFrom_split _ hitems).2.1).symm.trans hword.kind
      rw [hname] at hkind
      exact absurd hkind (by decide)

end Rewriting.Ran

/-- **No module syntax survives.** In what an accepted script is rewritten to, no keyword `export`
writes anything, nor does a token of a statement that is removed. Every `let` and `const` elsewhere
writes `var`. An `import` that begins a statement writes nothing; one that begins an expression
writes itself, with the assignment of the default export before it if it is what an
`export default` exports. -/
theorem no_module_syntax (h : transform exportsName source = .ok script) :
    ∃ stream state, tokenize source = .ok stream ∧
      stream.classify.rewrite exportsName = .ok state ∧ script.text = state.stream.render ∧
      (∀ id, stream.classify.IsKeyword id "export" → state.stream.written id = "") ∧
      (∀ id, stream.classify.IsKeyword id "let" ∨ stream.classify.IsKeyword id "const" →
        (¬ stream.classify.IsRemoved id → state.stream.written id = "var") ∧
        (stream.classify.IsRemoved id → state.stream.written id = "")) ∧
      (∀ id, stream.classify.IsKeyword id "import" → ¬ stream.classify.IsDynamic id →
        state.stream.written id = "") ∧
      (∀ id, stream.classify.IsKeyword id "import" → stream.classify.IsDynamic id →
        (stream.classify.IsTarget id →
          state.stream.written id = exportsName ++ ".default = import") ∧
        (¬ stream.classify.IsTarget id → state.stream.written id = "import")) ∧
      (∀ id, stream.classify.IsRemoved id → state.stream.written id = "") := by
  obtain ⟨stream, acts, state, haccepted⟩ := accepted_of_transform h
  have hran := haccepted.ran
  have hfits := haccepted.fits
  refine ⟨stream, state, haccepted.tokens, haccepted.rewrites, by rw [haccepted.script],
    fun id hword => hran.written_of_exporting hfits hword, fun id hword => ⟨fun hnot => ?_,
      fun hremoved => hran.written_of_removed hfits hremoved⟩,
    fun id hword hstatic => hran.written_of_static hfits hword hstatic, fun id hword hdynamic => ?_,
    fun id hremoved => hran.written_of_removed hfits hremoved⟩
  · refine hran.written_of_shortened hword ?_
    rcases stream.classify.reached_or_removed id with hreached | ⟨first, last, hremoves, hrange⟩
    · exact hreached
    · exact absurd ⟨first, last, hremoves, Nat.le_of_lt hrange.1, hrange.2⟩ hnot
  · have hassigned : Act.assigned exportsName "import" = exportsName ++ ".default = import" := by
      unfold Act.assigned defaultName
      simp only [String.append_assoc]
      congr 1
    exact hassigned ▸ hran.written_of_dynamic hfits hword hdynamic

/-- An empty list of exports goes, and the declaration behind it stays. -/
theorem empty_list_is_removed :
    ∃ stream state, tokenize "export {};let a" = .ok stream ∧
      stream.classify.rewrite "exports" = .ok state ∧ state.stream.render = "var a" ∧
      stream.classify.IsKeyword 0 "export" ∧ state.stream.written 0 = "" := by
  obtain ⟨stream, state, htokens, hrewrites, hrender, hexport, -⟩ :=
    no_module_syntax (eq_ok_of_toOption (by decide +kernel) :
      transform "exports" "export {};let a" = .ok ⟨"var a", [], []⟩)
  have hread : (tokenize "export {};let a").toOption.map (fun stream =>
      (stream.classify.kind? 0, stream.classify.lexeme 0)) = some (some .keyword, "export") := by
    decide +kernel
  rw [htokens] at hread
  obtain ⟨hkind, hlexeme⟩ := Prod.mk.inj (Option.some.inj hread)
  exact ⟨stream, state, htokens, hrewrites, hrender.symm, ⟨hkind, hlexeme⟩,
    hexport 0 ⟨hkind, hlexeme⟩⟩

end ScriptLink
