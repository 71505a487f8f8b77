import ScriptLink.Proofs.ExportReading
import ScriptLink.Proofs.Looking

/-!
# Where a malformed statement is reported

An error names a statement and a place in the script. For eight of the eleven reasons the place is
that of the keyword which begins the statement. The other three come from the reader of specifier
lists. It serves imports and exports alike and does not learn where the keyword stands, so it
reports the token at which the list goes wrong, and that token is never the keyword.

* **`Reason.Shows`** — the token that the reader of lists reports for a reason.
* **`Malformed.Reported`** — the two kinds of places; `reported_of_importStatement` and
  `reported_of_exportStatement` say that there is no other.
* **`TokenStream.eq_of_offset_eq`** — a place is the place of one token only.
* **`malformed_statement_places`** — the law.
-/

namespace ScriptLink

open TokenStream Rewriting

namespace Reason

/-- The token that the reader of lists reports for a reason: the brace of a list that has no end,
what stands in the place of a name, or an `as` without a name behind it. -/
inductive Shows : Reason → Item → Prop where
  | openList {item : Item} (hopened : item.text = "\x7b") : Shows .openList item
  | bindingName {item : Item} (hname : item.isName = false) : Shows .bindingName item
  | aliasName {item : Item} (has : item.text = "as") : Shows .aliasName item

variable {reason : Reason} {item : Item}

theorem Shows.mem_ofList (h : reason.Shows item) : reason ∈ ofList := by
  cases h <;> decide

/-- What is reported for a list is not the keyword of a statement. -/
theorem Shows.not_keyword (h : reason.Shows item) (statement : StatementKind)
    (hkind : item.kind = .keyword) : item.text ≠ statement.keyword := by
  intro htext
  cases h with
  | openList hopened =>
    rw [hopened] at htext
    cases statement <;> exact absurd htext (by decide)
  | bindingName hname => exact absurd hname (by simp [Item.isName, hkind])
  | aliasName has =>
    rw [has] at htext
    cases statement <;> exact absurd htext (by decide)

end Reason

/-- Where an error is reported: at the keyword of the statement, which stands at `offset`, or at one
of the tokens behind it if the reader of lists gave the reason. -/
inductive Malformed.Reported (statement : StatementKind) (offset : Nat) (items : List Item) :
    Malformed → Prop where
  | keyword {reason : Reason} (hreason : reason ∉ Reason.ofList) :
      Reported statement offset items ⟨statement, offset, reason⟩
  | token {reason : Reason} {item : Item} (hmem : item ∈ items) (hshows : reason.Shows item) :
      Reported statement offset items ⟨statement, item.offset, reason⟩

/-! ## The readers -/

section

variable {statement : StatementKind} {offset : Nat} {items more : List Item} {opened : Item}
  {error : Malformed}

theorem Malformed.Reported.mono (h : Reported statement offset items error) (hsub : items ⊆ more) :
    Reported statement offset more error := by
  cases h with
  | keyword hreason => exact .keyword hreason
  | token hmem hshows => exact .token (hsub hmem) hshows

/-- **The reader of lists** reports the brace, or a token behind it. By induction on the list:
behind a specifier the rest of the list is read in the same way. -/
theorem Specifier.reported_of_list (offset : Nat) (hopened : opened.text = "\x7b")
    (h : list statement opened.offset items = .error error) :
    Malformed.Reported statement offset (opened :: items) error := by
  fun_induction list statement opened.offset items with
  | case1 =>
    obtain rfl := Except.error.inj h
    exact .token List.mem_cons_self (.openList hopened)
  | case2 => exact absurd h (by simp)
  | case3 current rest _ hname found hfound =>
    -- an `as` without a name behind it
    obtain rfl := Except.error.inj h
    obtain ⟨marker, later, rfl, has, rfl⟩ := newName?_error hfound
    exact .token (by simp) (.aliasName has)
  | case4 current rest _ hname newName behind hrenamed found hfound ih =>
    obtain ⟨taken, rfl, -, -⟩ := renames_of_newName? hrenamed
    obtain ⟨comma, hskip, -⟩ := Item.skip_split "," behind
    refine (ih (hfound.trans h)).mono (List.cons_subset_cons opened ?_)
    intro item hmem
    have hbehind : item ∈ behind := by
      rw [hskip]
      exact List.mem_append_right comma hmem
    exact List.mem_cons_of_mem current (List.mem_append_right taken hbehind)
  | case5 => exact absurd h (by simp)
  | case6 current rest _ hname =>
    obtain rfl := Except.error.inj h
    exact .token (by simp) (.bindingName (Bool.eq_false_iff.mpr hname))

theorem ImportStatement.reported_of_otherBindings (h : otherBindings offset items = .error error) :
    Malformed.Reported .importing offset items error := by
  unfold otherBindings at h
  split at h
  · exact absurd h (by simp)
  · next first rest =>
    split at h
    · obtain ⟨reason, hreason, rfl⟩ := namespaceBinding_error h
      exact .keyword hreason
    · split at h
      · next hopened =>
        exact Specifier.reported_of_list offset (eq_of_beq hopened) (error_of_map_eq_error h)
      · exact absurd h (by simp)

/-- An import that is not read is reported at its keyword or in its list. -/
theorem reported_of_importStatement (h : importStatement offset items = .error error) :
    Malformed.Reported .importing offset items error := by
  unfold importStatement at h
  split at h
  · exact absurd h (by simp)
  · split at h
    · -- only a path, for the effects of the module
      obtain rfl := ImportStatement.withPath_error (error_of_map_eq_error h)
      exact .keyword (by decide)
    · obtain ⟨first, hsplit, -⟩ := ImportStatement.defaultPart_defaultBinding items
      have hbindings := error_of_map_eq_error h
      unfold ImportStatement.withBindings at hbindings
      dsimp only at hbindings
      split at hbindings
      · next found hothers =>
        obtain rfl := Except.error.inj hbindings
        -- the tokens of a default binding stand in front
        have hreported := ImportStatement.reported_of_otherBindings hothers
        rw [hsplit]
        exact hreported.mono fun _ hmem => List.mem_append_right first hmem
      · split at hbindings
        · obtain rfl := ImportStatement.withPath_error hbindings
          exact .keyword (by decide)
        · obtain rfl := Except.error.inj hbindings
          exact .keyword (by decide)

/-- An export that is not read is reported at its keyword or in its list. -/
theorem reported_of_exportStatement (h : exportStatement offset items = .error error) :
    Malformed.Reported .exporting offset items error := by
  unfold exportStatement at h
  split at h
  · obtain rfl := Except.error.inj h
    exact .keyword (by decide)
  · next first rest =>
    split at h
    · split at h
      · obtain rfl := Except.error.inj h
        exact .keyword (by decide)
      · exact absurd h (by simp)
    · split at h
      · next hopened =>
        unfold ExportStatement.ofClause at h
        split at h
        · next found hlist =>
          obtain rfl := Except.error.inj h
          exact Specifier.reported_of_list offset (eq_of_beq hopened) hlist
        · split at h
          · obtain rfl := Except.error.inj h
            exact .keyword (by decide)
          · exact absurd h (by simp)
      · obtain ⟨reason, hreason, rfl⟩ := ExportStatement.ofDeclaration_error h
        exact .keyword hreason

end

/-! ## Places and tokens -/

variable {exportsName source : String} {stream : TokenStream} {state : Rewriting} {id other : Nat}
  {error : Malformed}

/-- The tokens of a script stand behind each other. -/
theorem TokenStream.offset_lt (h : tokenize source = .ok stream) (hlt : id < other)
    (hother : other < stream.size) : stream.offset id < stream.offset other := by
  have hsorted : stream.spans.Pairwise fun before after => before.start < after.start := by
    obtain ⟨found, hfound, rfl⟩ := pieces_of_tokenize h
    have htext : source.toList = [] ++ found.flatMap Piece.text := (pieces_eq hfound).1.symm
    rw [spans_ofMarks]
    exact (locate_tiles htext (pieces_eq hfound).2).sorted.2
  have hlength : stream.spans.length = stream.size := by simp [spans, size]
  have hplace (k : Nat) (hk : k < stream.spans.length) :
      stream.offset k = (stream.spans[k]).start := by
    have htoken : k < stream.tokens.size := by
      rw [hlength] at hk
      exact hk
    simp [offset, get?, spans, htoken]
  have hid : id < stream.spans.length := by omega
  have hlast : other < stream.spans.length := by omega
  rw [hplace id hid, hplace other hlast]
  exact List.pairwise_iff_getElem.mp hsorted id other hid hlast hlt

/-- **A place belongs to one token.** -/
theorem TokenStream.eq_of_offset_eq (h : tokenize source = .ok stream) (hid : id < stream.size)
    (hother : other < stream.size) (heq : stream.offset id = stream.offset other) : id = other := by
  rcases Nat.lt_trichotomy id other with hlt | hsame | hlt
  · have := offset_lt h hlt hother
    omega
  · exact hsame
  · have := offset_lt h hlt hid
    omega

theorem TokenStream.offset_of_meaningful? {item : Item} (h : stream.meaningful? id = some item) :
    stream.offset id = item.offset := by
  obtain ⟨hitem, -⟩ := Option.filter_eq_some_iff.mp h
  obtain ⟨token, htoken, rfl⟩ := Option.map_eq_some_iff.mp hitem
  unfold offset
  rw [htoken]
  rfl

/-! ## The law -/

/-- At a place that is reported for a list there is no keyword of a statement. -/
theorem not_isKeyword_of_shows (h : tokenize source = .ok stream) {item : Item} {reason : Reason}
    (hmem : item ∈ stream.classify.itemsFrom id) (hshows : reason.Shows item)
    (hplace : stream.classify.offset other = item.offset) (statement : StatementKind) :
    ¬ stream.classify.IsKeyword other statement.keyword := by
  intro hword
  obtain ⟨before, after, hsplit⟩ := List.append_of_mem hmem
  obtain ⟨-, hmeans, -, -⟩ := itemsFrom_split _ hsplit
  have hsize := lt_size_of_meaningful? hmeans
  have hother := Ran.lt_size_of_isKeyword hword
  rw [← offset_of_meaningful? hmeans, offset_classify] at hplace
  rw [size_classify] at hsize hother
  -- it would have to be the token of the list
  obtain rfl := eq_of_offset_eq h hother hsize hplace
  have hkind : item.kind = .keyword :=
    Option.some.inj ((kind?_of_meaningful? hmeans).symm.trans hword.kind)
  have htext : item.text = statement.keyword :=
    (lexeme_of_meaningful? hmeans).symm.trans hword.reads
  exact hshows.not_keyword statement hkind htext

/-- A pass that fails fails at a keyword, and the error is reported there or in its list. -/
theorem exists_reported_of_rewrite (h : tokenize source = .ok stream)
    (hrewrite : stream.classify.rewrite exportsName = .error error) :
    ∃ id state statement, LooksAt exportsName stream.classify id state ∧
      visit exportsName state id = .error error ∧
      stream.classify.IsKeyword id statement.keyword ∧
      Malformed.Reported statement (stream.classify.offset id)
        (stream.classify.itemsFrom (id + 1)) error := by
  obtain ⟨id, state, hlooks, hreader⟩ := reader_of_rewrite_error h hrewrite
  rcases hreader with ⟨hword, hreads⟩ | ⟨hword, hreads⟩
  · have hvisit := hlooks.visit_export h hword
    rw [hreads] at hvisit
    exact ⟨id, state, .exporting, hlooks, hvisit, hword, reported_of_exportStatement hreads⟩
  · have hvisit := hlooks.visit_import h hword
    rw [hreads] at hvisit
    exact ⟨id, state, .importing, hlooks, hvisit, hword, reported_of_importStatement hreads⟩

/-- **The place of a malformed statement.** If a script is refused for a statement, then the pass
came to the keyword of such a statement and could not follow it. The error is reported at that
keyword unless the reason is one of those of a specifier list. In that case it is reported at the
token behind the keyword where the list goes wrong, and no keyword of such a statement stands there.
-/
theorem malformed_statement_places
    (h : transform exportsName source = .error (.malformed error)) :
    ∃ stream id state, tokenize source = .ok stream ∧
      LooksAt exportsName stream.classify id state ∧
      visit exportsName state id = .error error ∧
      stream.classify.IsKeyword id error.statement.keyword ∧
      (error.reason ∉ Reason.ofList → error.offset = stream.classify.offset id) ∧
      (error.reason ∈ Reason.ofList → ∃ item ∈ stream.classify.itemsFrom (id + 1),
        error.offset = item.offset ∧ error.reason.Shows item) ∧
      ((∃ other, stream.classify.IsKeyword other error.statement.keyword ∧
        stream.classify.offset other = error.offset) ↔ error.reason ∉ Reason.ofList) := by
  unfold transform at h
  split at h
  · exact absurd h (by simp)
  · next stream hstream =>
    split at h
    · next found hrewrite =>
      obtain rfl := SourceError.malformed.inj (Except.error.inj h)
      obtain ⟨id, state, statement, hlooks, hvisit, hword, hreported⟩ :=
        exists_reported_of_rewrite hstream hrewrite
      refine ⟨stream, id, state, hstream, hlooks, hvisit, ?_⟩
      cases hreported with
      | keyword hreason =>
        exact ⟨hword, fun _ => rfl, fun hlist => absurd hlist hreason, fun _ => hreason,
          fun _ => ⟨id, hword, rfl⟩⟩
      | @token reason item hmem hshows =>
        have hlist := hshows.mem_ofList
        refine ⟨hword, fun hreason => absurd hlist hreason, fun _ => ⟨item, hmem, rfl, hshows⟩,
          ?_, fun hreason => absurd hlist hreason⟩
        rintro ⟨other, hother, hplace⟩
        exact absurd hother (not_isKeyword_of_shows hstream hmem hshows hplace statement)
    · exact absurd h (by simp)

/-- An import without `from` is reported at its keyword, on the second line. -/
theorem missing_from_is_reported_at_import :
    let source := "x();\nimport \x7ba\x7d \x27m\x27;"
    transform "exports" source = .error (.malformed ⟨.importing, 5, .fromKeyword⟩) ∧
      ∃ stream id state, tokenize source = .ok stream ∧
        LooksAt "exports" stream.classify id state ∧
        stream.classify.IsKeyword id "import" ∧ stream.classify.offset id = 5 := by
  intro source
  have herror : transform "exports" source = .error (.malformed ⟨.importing, 5, .fromKeyword⟩) :=
    eq_error_of_casesOn (by decide +kernel)
  obtain ⟨stream, id, state, hstream, hlooks, -, hword, hplace, -, -⟩ :=
    malformed_statement_places herror
  exact ⟨herror, stream, id, state, hstream, hlooks, hword, (hplace (by decide)).symm⟩

/-- **A list is reported inside**: the place of the error is that of the equals sign, and the one
keyword of the script stands at the beginning. -/
theorem list_error_points_inside :
    let source := "export \x7b=\x7d"
    transform "exports" source = .error (.malformed ⟨.exporting, 8, .bindingName⟩) ∧
      ∃ stream, tokenize source = .ok stream ∧
        stream.classify.IsKeyword 0 "export" ∧ stream.classify.offset 0 = 0 ∧
        ¬ ∃ id, stream.classify.IsKeyword id "export" ∧ stream.classify.offset id = 8 := by
  intro source
  refine ⟨eq_error_of_casesOn (by decide +kernel), ?_⟩
  have hread : (tokenize source).toOption.map (fun stream =>
      (stream.classify.kind? 0, stream.classify.lexeme 0, stream.classify.offset 0,
        stream.classify.itemsFrom 1)) =
      some (some .keyword, "export", 0, [⟨2, .bracket, "\x7b", 7⟩, ⟨3, .operator, "=", 8⟩,
        ⟨4, .bracket, "\x7d", 9⟩]) := by decide +kernel
  obtain ⟨stream, hstream, hparts⟩ := Option.map_eq_some_iff.mp hread
  obtain ⟨hkind, hrest⟩ := Prod.mk.inj hparts
  obtain ⟨hlexeme, hrest⟩ := Prod.mk.inj hrest
  obtain ⟨hoffset, hitems⟩ := Prod.mk.inj hrest
  have htokens := eq_ok_of_toOption hstream
  refine ⟨stream, htokens, ⟨hkind, hlexeme⟩, hoffset, ?_⟩
  rintro ⟨id, hword, hplace⟩
  have hmem : (⟨3, .operator, "=", 8⟩ : Item) ∈ stream.classify.itemsFrom 1 := by simp [hitems]
  exact not_isKeyword_of_shows htokens hmem (.bindingName rfl) hplace .exporting hword

end ScriptLink
