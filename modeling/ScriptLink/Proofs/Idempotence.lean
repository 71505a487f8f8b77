import ScriptLink.Proofs.Header

/-!
# A second pass changes nothing

What the pass writes is program text again, and once more the pass goes over it. Where each
statement that it acts on begins a line, the second pass finds nothing to do: no piece of the first
script reads on into what has been changed, and no word has become a keyword because its neighbours
went.

Without that condition it is not so. Where `a / import "b/"; c + "/; d"` loses its import, the slash
that divides begins a regular expression, which takes the first quote along and leaves the other one
open. A line break before the import keeps the slash from reading on.

* **`TokenStream.LineSeparated`** — the condition.
* **`Accepted.Place`** — a boundary of the pass, with the context of the scanner.
* **`Accepted.Revised`** — what is known of the output from there on. There is one lemma for each
  act, from the next boundaries to the one before (`Accepted.revised_of_idle` and so on), and
  `revised` goes from the end of the script to its beginning.
* **`transform_idempotent`** — the law.
-/

namespace ScriptLink

open Context Piece TokenStream Rewriting

/-! ## Where lines begin -/

/-- Behind the pieces a line begins: they have no text, or their text ends in a line break. -/
def Piece.beginsLine (pieces : List Piece) : Bool :=
  (texts pieces).isEmpty || endsLine (texts pieces)

theorem Piece.beginsLine_concat (pieces : List Piece) {piece : Piece} (h : piece.text ≠ []) :
    beginsLine (pieces ++ [piece]) = endsLine piece.text := by
  have htexts : texts (pieces ++ [piece]) = texts pieces ++ piece.text := by simp
  have hsome : (texts pieces ++ piece.text).isEmpty = false := by simp [h]
  unfold beginsLine
  rw [htexts, hsome, Bool.false_or, endsLine_append _ h]

theorem TokenStream.beginsLine_take {stream : TokenStream} {id : Nat} (hid : id < stream.size)
    (hname : Identifier.isName (stream.lexeme id).toList = true) :
    beginsLine (stream.toPieces.take (id + 1)) = false := by
  obtain ⟨piece, -, htake, -, htext⟩ := piece_of_lt hid
  rw [htext] at hname
  have hne : piece.text ≠ [] := fun hnil => by
    rw [hnil] at hname
    exact absurd hname (by simp [Identifier.isName])
  rw [htake, beginsLine_concat _ hne, (Unbroken.of_isName hname).endsLine_eq]

namespace TokenStream

/-- The token stands at the start of the text or right behind a line break. -/
def StartsLine (stream : TokenStream) (id : Nat) : Prop :=
  beginsLine (stream.toPieces.take id) = true

/-- The pass looks at the keyword of an export or of an import that is a statement. -/
inductive ActsOn (stream : TokenStream) (id : Nat) : Prop where
  | exporting (hreached : stream.Reached id) (hword : stream.IsKeyword id "export")
  | importing (hreached : stream.Reached id) (hword : stream.IsKeyword id "import")
      (hstatic : ¬ stream.IsDynamic id)

/-- Every import and every export that the pass acts on starts a line. Where a statement that is
removed ends does not matter: what stands behind it in its line starts the line in its place. -/
def LineSeparated (stream : TokenStream) : Prop :=
  ∀ id, stream.classify.ActsOn id → stream.StartsLine id

end TokenStream

/-! ## From boundary to boundary -/

theorem toList_assigned (target : String) : (Act.assigned defaultExportsName target).toList =
    "exports.default = ".toList ++ target.toList := by
  unfold Act.assigned
  rw [String.toList_append]
  rfl

namespace Accepted

variable {source : String} {script : Script} {stream : TokenStream} {acts : Nat → Act}
  {state : Rewriting} {context : Context} {atTarget : Bool} {id : Nat}

/-- A boundary, and the context in which the scanner comes to it. -/
structure Place (stream : TokenStream) (acts : Nat → Act) (atTarget : Bool) (context : Context)
    (id : Nat) : Prop where
  le : id ≤ stream.size
  boundary : Boundary defaultExportsName stream.classify acts atTarget id
  counts : context.CountsBraces
  scanned : Scanned context (stream.toPieces.drop id)

/-- What the pass writes from a boundary on revises the pieces there. At a target the beginning of
an assignment can come first. -/
def Revised (stream : TokenStream) (state : Rewriting) (atTarget : Bool) (context : Context)
    (id : Nat) : Prop :=
  ∃ ahead body found, state.stream.writtenFrom id = ahead ++ body ∧
    (ahead = [] ∨ atTarget = true ∧ ahead = "exports.default = ".toList) ∧
    Revision (beginsLine (stream.toPieces.take id)) context (lastText? (stream.toPieces.take id))
      (stream.toPieces.drop id) body found

theorem Revised.plain (h : Revised stream state false context id) : ∃ found,
    Revision (beginsLine (stream.toPieces.take id)) context (lastText? (stream.toPieces.take id))
      (stream.toPieces.drop id) (state.stream.writtenFrom id) found := by
  obtain ⟨ahead, body, found, hnew, hahead, hrevision⟩ := h
  rcases hahead with rfl | ⟨hno, -⟩
  · rw [hnew]
    exact ⟨found, hrevision⟩
  · exact absurd hno (by simp)

/-- A token that does nothing is one that the pass would pass over again. -/
theorem asksNothing (h : Accepted defaultExportsName source script stream acts state)
    (hid : id < stream.size) (hdoes : stream.classify.Does id .idle) {piece : Piece}
    (hkind : stream.kind? id = some piece.kind) (htext : (stream.lexeme id).toList = piece.text) :
    piece.AsksNothing (lastText? (stream.toPieces.take id))
      (firstText? (stream.toPieces.drop (id + 1))) := by
  intro hidentifier
  rw [hidentifier] at hkind
  have hkeyword {word : String} (hreserved : isReserved word = true)
      (hword : piece.text = word.toList)
      (hproperty : ¬ IsProperty (lastText? (stream.toPieces.take id))
        (firstText? (stream.toPieces.drop (id + 1)))) : stream.classify.IsKeyword id word :=
    (isKeyword_iff h.tokens hid hreserved).mpr
      ⟨hkind, String.toList_inj.mp (htext.trans hword), hproperty⟩
  cases hdoes with
  | idle hother himport =>
    refine ⟨fun hmem => Classical.not_not.mp fun hproperty => ?_, fun hword => ?_⟩
    · have hmem' : piece.text ∈ ["let", "const", "export"].map String.toList := hmem
      obtain ⟨word, hlisted, heq⟩ := List.mem_map.mp hmem'
      have hall : ∀ word ∈ ["let", "const", "export"], isReserved word = true := by decide
      exact hother word hlisted (hkeyword (hall word hlisted) heq.symm hproperty)
    · by_cases hproperty : IsProperty (lastText? (stream.toPieces.take id))
          (firstText? (stream.toPieces.drop (id + 1)))
      · exact .inl hproperty
      · exact .inr ((isDynamic_iff stream id).mp (himport (hkeyword (by decide) hword hproperty)))

section

variable (h : Accepted defaultExportsName source script stream acts state)
  (hplace : Place stream acts atTarget context id) (hid : id < stream.size)
  (hlater : ∀ atTarget' context' id', id < id' → Place stream acts atTarget' context' id' →
    Revised stream state atTarget' context' id')

include h hplace hid

theorem does : stream.classify.Does id (acts id) :=
  h.ran.does id (by rwa [size_classify]) hplace.boundary.reached

include hlater

/-- A token that does nothing stays, behind the beginning of an assignment if it is the target. -/
theorem revised_of_idle (hact : acts id = .idle) : Revised stream state atTarget context id := by
  have hsize : id < stream.classify.size := by rwa [size_classify]
  have hdoes := h.does hplace hid
  rw [hact] at hdoes
  obtain ⟨piece, hdrop, htake, hkind, htext⟩ := piece_of_lt hid
  have hasks := h.asksNothing hid hdoes hkind htext
  have hscanned := hplace.scanned
  rw [hdrop] at hscanned
  cases hscanned with
  | @cons _ next position c tail kind _ hstep hrest =>
    obtain ⟨found, hrevision⟩ := (hlater false next (id + 1) (Nat.lt_succ_self id)
      ⟨hid, hplace.boundary.next h.fits h.ran hsize (.inl hact),
        countsBraces_of_step hplace.counts hstep, hrest⟩).plain
    rw [htake, beginsLine_concat _ (by simp), lastText?_concat] at hrevision
    have hkeep : Revision (beginsLine (stream.toPieces.take id)) context
        (lastText? (stream.toPieces.take id)) (stream.toPieces.drop id)
        (c :: tail ++ state.stream.writtenFrom (id + 1)) _ :=
      hdrop ▸ hrevision.keep hstep fun _ => hasks
    have hown : (state.stream.written id).toList = c :: tail ∨
        atTarget = true ∧
          (state.stream.written id).toList = "exports.default = ".toList ++ c :: tail := by
      rcases hplace.boundary.written_of_idle h.ran hsize hact with hown | ⟨htarget, hassigned⟩
      · exact .inl (by rw [hown, lexeme_classify, htext])
      · exact .inr ⟨htarget, by rw [hassigned, lexeme_classify, toList_assigned, htext]⟩
    rw [Revised, h.writtenFrom_eq hid]
    rcases hown with hown | ⟨htarget, hassigned⟩
    · exact ⟨[], _, _, by rw [hown]; rfl, .inl rfl, hkeep⟩
    · exact ⟨_, _, _, by rw [hassigned, List.append_assoc], .inr ⟨htarget, rfl⟩, hkeep⟩

/-- `let` and `const` become `var`. -/
theorem revised_of_shorten (hact : acts id = .shorten) :
    Revised stream state atTarget context id := by
  have hsize : id < stream.classify.size := by rwa [size_classify]
  have hdoes := h.does hplace hid
  rw [hact] at hdoes
  cases hdoes with
  | shorten hword =>
    have hnew := h.ran.written_of_shortened hword hplace.boundary.reached
    obtain ⟨word, hkeyword, hcases⟩ : ∃ word, stream.classify.IsKeyword id word ∧
        (word = "let" ∨ word = "const") :=
      hword.elim (fun hlet => ⟨_, hlet, .inl rfl⟩) fun hconst => ⟨_, hconst, .inr rfl⟩
    obtain ⟨stack, rfl, hdrop, hrest, hstops⟩ := scanned_of_isKeyword h.tokens hkeyword
      (by rcases hcases with rfl | rfl <;> decide) hplace.scanned
    have hname : Identifier.isName (stream.lexeme id).toList = true := by
      rw [← lexeme_classify, hkeyword.reads]
      rcases hcases with rfl | rfl <;> decide
    obtain ⟨found, hrevision⟩ := (hlater false _ (id + 1) (Nat.lt_succ_self id)
      ⟨hid, hplace.boundary.next h.fits h.ran hsize (.inr hact), hplace.counts, hrest⟩).plain
    rw [beginsLine_take hid hname, lastText?_of_isKeyword hkeyword] at hrevision
    -- the word ends no line, so the text behind it goes on alike
    have hstops' := (hrevision.agrees (.inl rfl)).stops (by decide) hstops
    refine ⟨[], _, _, ?_, .inl rfl, hdrop ▸ hrevision.shorten ?_ hstops'⟩
    · rw [h.writtenFrom_eq hid, hnew]
      rfl
    · exact hcases.imp (fun heq => congrArg String.toList heq) fun heq => congrArg String.toList heq

omit hid in
/-- A statement that is removed writes nothing, and the context behind it is the one before it. -/
theorem revised_of_remove {last : Nat} (hremoval : stream.classify.Removal id last)
    (hstarts : stream.StartsLine id) : Revised stream state atTarget context id := by
  have hlt := hremoval.lt
  have hlast : last < stream.size := by
    have hlast := hremoval.lt_size
    rwa [size_classify] at hlast
  obtain ⟨word, hkeyword, hcases⟩ : ∃ word, stream.classify.IsKeyword id word ∧
      (word = "export" ∨ word = "import") :=
    hremoval.isKeyword.elim (fun hword => ⟨_, hword, .inl rfl⟩) fun hword => ⟨_, hword, .inr rfl⟩
  obtain ⟨stack, rfl, hdrop, hrest, -⟩ := scanned_of_isKeyword h.tokens hkeyword
    (by rcases hcases with rfl | rfl <;> decide) hplace.scanned
  obtain ⟨items, later, hitems, hdetached, hends⟩ := hremoval.detached h.fits
  have hbehind := scanned_of_detached hrest hplace.counts hitems hdetached
  rw [hends] at hbehind
  obtain ⟨found, hrevision⟩ := (hlater false _ (last + 1) (by omega)
    ⟨hlast, hplace.boundary.behind h.fits h.ran hremoval, hplace.counts, hbehind⟩).plain
  have hnew : state.stream.writtenFrom id = state.stream.writtenFrom (last + 1) := by
    refine writtenFrom_of_empty (by omega) (by rw [h.size_eq]; exact hlast) fun j hj hjlt => ?_
    exact h.ran.written_of_removed h.fits
      ⟨id, last, ⟨hplace.boundary.reached, hremoval⟩, hj, Nat.le_of_lt_succ hjlt⟩
  refine ⟨[], _, found, hnew, .inl rfl, ?_⟩
  -- a line begins here, so no piece before looks at what goes
  have hline : beginsLine (stream.toPieces.take id) = true := hstarts
  rw [hline, drop_eq_append stream (by omega : id ≤ last + 1)]
  refine hrevision.drop (hremoval.lastText? h.fits) ?_
  rw [← drop_eq_append stream (by omega : id ≤ last + 1), hdrop, firstText?_cons]
  show ∀ text ∈ openers, some word.toList ≠ some text
  rcases hcases with rfl | rfl <;> decide

omit hlater in
/-- The keyword of an export that stays goes. -/
theorem revised_of_export (hword : stream.classify.IsKeyword id "export")
    (hstarts : stream.StartsLine id)
    (hrest : ∀ stack, context = ⟨.code, stack⟩ →
      Scanned ⟨.code, stack⟩ (stream.toPieces.drop (id + 1)) → ∃ found,
        Revision true ⟨.code, stack⟩ (lastText? (stream.toPieces.take (id + 1)))
          (stream.toPieces.drop (id + 1)) (state.stream.writtenFrom (id + 1)) found) :
    Revised stream state atTarget context id := by
  obtain ⟨stack, rfl, hdrop, hscanned, -⟩ :=
    scanned_of_isKeyword h.tokens hword (by decide) hplace.scanned
  obtain ⟨found, hrevision⟩ := hrest stack rfl hscanned
  have hline : beginsLine (stream.toPieces.take id) = true := hstarts
  have hgone : Revision true ⟨.code, stack⟩ (lastText? (stream.toPieces.take id))
      ([⟨.identifier, "export".toList⟩] ++ stream.toPieces.drop (id + 1))
      (state.stream.writtenFrom (id + 1)) found :=
    hrevision.drop (by rw [lastText?_of_isKeyword hword]; decide) fun text hmem heq =>
      absurd (Option.some.inj heq ▸ hmem) (by decide)
  refine ⟨[], state.stream.writtenFrom (id + 1), found, ?_, .inl rfl, ?_⟩
  · rw [h.writtenFrom_eq hid, h.ran.written_of_exporting h.fits hword]
    rfl
  · rw [hline, hdrop]
    exact hgone

omit hplace hid hlater in
/-- The word `default` goes, and at the target the assignment begins, unless the target becomes
something else. -/
theorem revision_of_default {stack : List Interpolation} {start : Nat} {keyword target : Item}
    {piece piece' : Piece} {hidden : Bool} {before : Option (List Char)} {ahead body : List Char}
    {found : List Piece} (hto : stream.ToItem stack start keyword piece)
    (hto' : stream.ToItem stack (keyword.id + 1) target piece')
    (hdefault : keyword.text = defaultName) (herased : state.stream.written keyword.id = "")
    (hshort : ∀ j, keyword.id + 1 ≤ j → j < target.id → state.stream.Shortens stream.classify j)
    (hnew : state.stream.writtenFrom target.id = ahead ++ body)
    (hahead : ahead = [] ∨ ahead = "exports.default = ".toList)
    (hrevision : Revision hidden ⟨.code, stack⟩ (some "default".toList)
      (stream.toPieces.drop target.id) body found) :
    ∃ found, Revision true ⟨.code, stack⟩ before (stream.toPieces.drop keyword.id)
      (state.stream.writtenFrom keyword.id) found := by
  obtain ⟨kind, text⟩ := piece
  obtain rfl : text = "default".toList := hto.text.trans (congrArg _ hdefault)
  obtain ⟨rfl, -, -⟩ := hto.scanned.name (by decide : Identifier.isName "default".toList = true)
  have hwritten : state.stream.writtenFrom keyword.id =
      texts (stream.piecesBetween (keyword.id + 1) target.id) ++ (ahead ++ body) := by
    rw [h.writtenFrom_eq hto.lt, herased, h.writtenFrom_of_gap hto' hshort, hnew]
    rfl
  rw [hwritten, hto.drop, drop_eq_append stream hto'.le]
  rcases hahead with rfl | rfl
  · have hgap := hrevision.gap hto'.trivia hto'.passable
    have hgone : Revision true ⟨.code, stack⟩ before
        ([⟨.identifier, "default".toList⟩] ++ (stream.piecesBetween (keyword.id + 1) target.id ++
          stream.toPieces.drop target.id)) _ found :=
      hgap.drop (by decide) fun text hmem heq => absurd (Option.some.inj heq ▸ hmem) (by decide)
    exact ⟨found, hgone⟩
  · exact ⟨_, hrevision.assign hto'.passable⟩

/-- An exported declaration loses its first word, and its name gets the mark. -/
theorem revised_of_declare {header rest : List Item} {name : Item} (hact : acts id = .declare name)
    (hword : stream.classify.IsKeyword id "export")
    (hitems : stream.classify.itemsFrom (id + 1) = header ++ name :: rest)
    (hheader : IsHeader header) (hname : name.kind = .identifier) (hstarts : stream.StartsLine id) :
    Revised stream state atTarget context id := by
  have hsize : id < stream.classify.size := by rwa [size_classify]
  obtain ⟨hle, hmeans, -, -⟩ := itemsFrom_split _ hitems
  have hnameSize : name.id < stream.size := by
    have hlt := lt_size_of_meaningful? hmeans
    rwa [size_classify] at hlt
  have hisName : Identifier.isName name.text.toList = true := by
    have hfit : name.Fits :=
      fits_of_mem h.fits (hitems ▸ List.mem_append_right _ List.mem_cons_self)
    unfold Item.Fits at hfit
    rwa [hname] at hfit
  have hshort : ∀ j, id + 1 ≤ j → j < name.id → state.stream.Shortens stream.classify j :=
    fun j => hplace.boundary.shortens_of_declare h.fits h.ran hsize hact hitems hheader
  have hmarked :=
    hplace.boundary.written_of_declared h.fits h.ran hsize hact hitems hheader hname
  refine h.revised_of_export hplace hid hword hstarts fun stack hcode hrest => ?_
  subst hcode
  have hbehind (hscanned : Scanned ⟨.code, stack⟩ (stream.toPieces.drop (name.id + 1))) :
      ∃ found, Revision false ⟨.code, stack⟩ (some name.text.toList)
        (stream.toPieces.drop (name.id + 1)) (state.stream.writtenFrom (name.id + 1)) found := by
    obtain ⟨found, hrevision⟩ := (hlater false _ (name.id + 1) (by omega) ⟨hnameSize,
      hplace.boundary.declared h.fits h.ran hsize hact hitems hheader hname, hplace.counts,
      hscanned⟩).plain
    have hlexeme : stream.lexeme name.id = name.text := by
      rw [← lexeme_classify, lexeme_of_meaningful? hmeans]
    rw [lastText?_take hmeans, beginsLine_take hnameSize (by rwa [hlexeme])] at hrevision
    exact ⟨found, hrevision⟩
  exact (h.headerRevised hrest hitems hheader.text_of_mem hname hisName
    (by rw [lastText?_of_isKeyword hword]; decide) hshort hmarked hbehind).1

/-- A default export becomes an assignment. -/
theorem revised_of_assign {keyword target : Item} {rest : List Item}
    (hact : acts id = .assign keyword.id target) (hword : stream.classify.IsKeyword id "export")
    (hitems : stream.classify.itemsFrom (id + 1) = keyword :: target :: rest)
    (hdefault : keyword.text = defaultName) (hstarts : stream.StartsLine id) :
    Revised stream state atTarget context id := by
  have hsize : id < stream.classify.size := by rwa [size_classify]
  have hbehind := (itemsFrom_split [] hitems).2.2.1
  have hmeans := (itemsFrom_split [] hitems).2.1
  have hlt := (itemsFrom_split [] hitems).1
  have hlt' := (itemsFrom_split [] hbehind).1
  have hshort : ∀ j, id < j → j < target.id → j ≠ keyword.id →
      state.stream.Shortens stream.classify j :=
    fun j => hplace.boundary.shortens_of_assign h.fits h.ran hsize hact hitems hdefault
  have herased := hplace.boundary.written_of_default h.fits h.ran hsize hact hitems hdefault
  refine h.revised_of_export hplace hid hword hstarts fun stack hcode hrest => ?_
  subst hcode
  obtain ⟨piece, hto⟩ := toItem hrest hitems
  have hname : Identifier.isName piece.text = true := by
    rw [hto.text, hdefault]
    decide
  obtain ⟨piece', hto'⟩ := toItem (hto.scanned.name hname).2.1 hbehind
  -- the target can be a statement of its own, so the assignment need not begin there
  obtain ⟨ahead, body, found, hnew, hahead, hrevision⟩ := hlater true ⟨.code, stack⟩ target.id
    (by omega) ⟨Nat.le_of_lt hto'.lt,
      hplace.boundary.target h.fits h.ran hsize hact hitems hdefault, hplace.counts,
      hto'.drop ▸ hto'.scanned⟩
  rw [hto'.lastText?, lastText?_take hmeans, hdefault] at hrevision
  obtain ⟨found, hkeyword⟩ := h.revision_of_default hto hto' hdefault herased
    (fun j hj hjlt => hshort j (by omega) hjlt (by omega)) hnew (hahead.imp_right And.right)
    hrevision
  rw [h.writtenFrom_of_gap hto fun j hj hjlt => hshort j hj (by omega) (by omega),
    drop_eq_append stream hto.le]
  exact ⟨found, hkeyword.gap hto.trivia hto.passable⟩

end

/-- From every boundary on, what the pass writes revises the pieces there. -/
theorem revised (h : Accepted defaultExportsName source script stream acts state)
    (hlines : stream.LineSeparated) (hplace : Place stream acts atTarget context id) :
    Revised stream state atTarget context id := by
  -- by induction on the number of tokens behind the boundary
  induction hleft : stream.size - id using Nat.strongRecOn generalizing atTarget context id with
  | ind left ih =>
    have hlater : ∀ atTarget' context' id', id < id' → Place stream acts atTarget' context' id' →
        Revised stream state atTarget' context' id' := fun _ _ id' hlt hplace' =>
      ih (stream.size - id') (by have := hplace'.le; omega) hplace' rfl
    rcases Nat.lt_or_eq_of_le hplace.le with hid | rfl
    · have hdoes := h.does hplace hid
      generalize hact : acts id = act at hdoes
      have hreached := hplace.boundary.reached
      cases hdoes with
      | idle _ _ => exact h.revised_of_idle hplace hid hlater hact
      | shorten _ => exact h.revised_of_shorten hplace hid hlater hact
      | remove hremoval =>
        refine h.revised_of_remove hplace hlater hremoval ?_
        rcases hremoval.isKeyword with hexport | himport
        · exact hlines id (.exporting hreached hexport)
        · exact hlines id (.importing hreached himport (hremoval.not_dynamic h.fits (Nat.le_refl id)
            (Nat.le_of_lt hremoval.lt) himport))
      | assign hword hitems hdefault =>
        exact h.revised_of_assign hplace hid hlater hact hword hitems hdefault
          (hlines id (.exporting hreached hword))
      | declare hword hitems hheader hname =>
        exact h.revised_of_declare hplace hid hlater hact hword hitems hheader hname
          (hlines id (.exporting hreached hword))
    · have hnone : stream.toPieces.drop stream.size = [] :=
        List.drop_eq_nil_of_le (Nat.le_of_eq (length_toPieces stream))
      have hscanned := hplace.scanned
      refine ⟨[], [], [], writtenFrom_of_le (Nat.le_of_eq h.size_eq), .inl rfl, ?_⟩
      rw [hnone] at hscanned ⊢
      cases hscanned with
      | nil => exact .nil _ _

end Accepted

/-- A text in which the scanner finds nothing that asks for anything is left alone. -/
theorem transform_of_rescans {exportsName text : String} {found : List Piece}
    (h : Rescans .start text.toList found) (hinert : InertFrom none found) :
    transform exportsName text = .ok ⟨text, [], []⟩ := by
  obtain ⟨found', hscanned, htexts, rfl⟩ := h
  have hpieces : pieces text = .ok found' := by
    unfold pieces
    rw [← htexts]
    exact hscanned.scan (.refl _) 0
  obtain ⟨stream, hstream⟩ : ∃ stream, tokenize text = .ok stream := by
    unfold tokenize
    rw [hpieces]
    exact ⟨_, rfl⟩
  have hsame := toPieces_of_tokenize hstream
  rw [hpieces] at hsame
  refine transform_of_inert hstream (inert_of_inertFrom hstream ?_)
  rwa [← Except.ok.inj hsame]

/-- **A second pass changes nothing.** Take a script that is accepted with the name of the exports
that is used by default, and in which every export, and every import that is a statement, starts a
line. What it is rewritten to is accepted too: it comes back as it stands, without an import or an
export. -/
theorem transform_idempotent {source : String} {script : Script} {stream : TokenStream}
    (h : transform defaultExportsName source = .ok script) (hstream : tokenize source = .ok stream)
    (hlines : stream.LineSeparated) :
    transform defaultExportsName script.text = .ok ⟨script.text, [], []⟩ := by
  obtain ⟨stream', acts, state, haccepted⟩ := accepted_of_transform h
  obtain rfl : stream' = stream := Except.ok.inj (haccepted.tokens.symm.trans hstream)
  have hplace : Accepted.Place stream' acts false .start 0 := by
    refine ⟨Nat.zero_le _, .start, fun _ hmem => absurd hmem List.not_mem_nil, ?_⟩
    exact scanned_of_scan (toPieces_of_tokenize hstream)
  obtain ⟨found, hrevision⟩ := (haccepted.revised hlines hplace).plain
  have htext : script.text.toList = state.stream.writtenFrom 0 := by
    rw [haccepted.script, toList_render]
  refine transform_of_rescans (htext ▸ hrevision.rescans) (hrevision.inert none ?_)
  exact fun text _ hsome => absurd hsome (by simp [lastText?])

/-- An import, a default export and a declaration, each in a line of its own. -/
theorem three_statements_settle : ∃ script,
    transform defaultExportsName "import a from \"b\";\nexport default a / 2;\nexport let c;\n" =
      .ok script ∧
    script.text = "\n  exports.default = a / 2;\n var c /* exported */;\n" ∧
    transform defaultExportsName script.text = .ok ⟨script.text, [], []⟩ := by
  have htext : (transform defaultExportsName
      "import a from \"b\";\nexport default a / 2;\nexport let c;\n").toOption.map Script.text =
      some "\n  exports.default = a / 2;\n var c /* exported */;\n" := by decide +kernel
  have hlines : (tokenize
      "import a from \"b\";\nexport default a / 2;\nexport let c;\n").toOption.map
      (fun stream => (List.range stream.size).all fun id =>
        !(["export", "import"].contains (stream.lexeme id)) ||
          beginsLine (stream.toPieces.take id)) = some true := by decide +kernel
  obtain ⟨script, hscript, htext⟩ := Option.map_eq_some_iff.mp htext
  obtain ⟨stream, hstream, hlines⟩ := Option.map_eq_some_iff.mp hlines
  refine ⟨script, eq_ok_of_toOption hscript, htext,
    transform_idempotent (eq_ok_of_toOption hscript) (eq_ok_of_toOption hstream) fun id hacts => ?_⟩
  have hword : stream.classify.IsKeyword id "export" ∨ stream.classify.IsKeyword id "import" := by
    cases hacts with
    | exporting _ hword => exact .inl hword
    | importing _ hword _ => exact .inr hword
  have hid := hword.elim Ran.lt_size_of_isKeyword Ran.lt_size_of_isKeyword
  rw [size_classify] at hid
  have hmem : ["export", "import"].contains (stream.lexeme id) = true := by
    rw [← lexeme_classify]
    rcases hword with hword | hword <;> rw [hword.reads] <;> decide
  have hline := List.all_eq_true.mp hlines id (List.mem_range.mpr hid)
  rwa [hmem, Bool.not_true, Bool.false_or] at hline

end ScriptLink
