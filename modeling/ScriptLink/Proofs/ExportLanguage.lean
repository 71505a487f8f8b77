import ScriptLink.Proofs.ExportReading
import ScriptLink.Proofs.Looking

/-!
# Which exports a script can have

As with imports, a statement that is in the grammar is recorded and the first one that is not ends the
pass with an error. But of two of the three forms only the keyword is done, and the pass goes on inside
the statement. It then looks at each token once, so what a script offers is what its statements offer,
each of them once, in the order of their keywords.

* **`Rewriting.LooksAt.export_cases`** — the two ways that the visit of an `export` can go.
* **`TokenStream.ExportsAt`** — where the pass looks at a statement of the grammar, with what it offers.
* **`exports_follow_grammar`** — the law.
-/

namespace ScriptLink

open TokenStream Rewriting

variable {exportsName source : String} {stream : TokenStream} {state final : Rewriting} {id : Nat}
  {exports : List Export}

namespace Rewriting.LooksAt

/-- A statement in the grammar is recorded. -/
theorem visit_of_exported (h : tokenize source = .ok stream)
    (hlooks : LooksAt exportsName stream.classify id state)
    (hword : stream.classify.IsKeyword id "export")
    (hspelled : ExportStatement.Matches (stream.classify.itemsFrom (id + 1)) exports) :
    ∃ next, visit exportsName state id = .ok next ∧ next.exports = state.exports ++ exports ∧
      next.imports = state.imports := by
  have hvisit := hlooks.visit_export h hword
  obtain ⟨statement, hreads, rfl⟩ := exportStatement_of_matches (stream.classify.offset id)
    (fits_itemsFrom h (id + 1)) hspelled
  rw [hreads] at hvisit
  refine ⟨_, hvisit, exports_applyExport state statement, ?_⟩
  cases statement <;> rfl

/-- **The two ways an `export` can go**: it is in the grammar, or the visit fails at it. -/
theorem export_cases (h : tokenize source = .ok stream)
    (hlooks : LooksAt exportsName stream.classify id state)
    (hword : stream.classify.IsKeyword id "export") :
    (∃ exports, ExportStatement.Matches (stream.classify.itemsFrom (id + 1)) exports) ∨
    ∃ error : Malformed,
      error.IsAt .exporting (stream.classify.offset id) (stream.classify.itemsFrom (id + 1)) ∧
        visit exportsName state id = .error error := by
  have hvisit := hlooks.visit_export h hword
  cases hreads : exportStatement (stream.classify.offset id)
    (stream.classify.itemsFrom (id + 1)) with
  | error error =>
    rw [hreads] at hvisit
    exact .inr ⟨error, isAt_of_exportStatement hreads, hvisit⟩
  | ok statement => exact .inl ⟨_, matches_of_exportStatement hreads⟩

end Rewriting.LooksAt

/-! ## The exports of a script -/

/-- The pass looks at an export statement that offers this. -/
structure TokenStream.ExportsAt (exportsName : String) (stream : TokenStream) (id : Nat)
    (exports : List Export) : Prop where
  word : stream.IsKeyword id "export"
  looks : ∃ state, LooksAt exportsName stream id state
  spelled : ExportStatement.Matches (stream.itemsFrom (id + 1)) exports

/-- In an accepted script, these are the statements that are read. -/
theorem exportsAt_iff (h : tokenize source = .ok stream)
    (hrewrite : stream.classify.rewrite exportsName = .ok final) :
    stream.classify.ExportsAt exportsName id exports ↔
      ∃ statement, stream.classify.BeginsExport id statement ∧ statement.exports = exports := by
  have hlooks (hword : stream.classify.IsKeyword id "export") :=
    exists_looksAt_iff h hrewrite (Ran.lt_size_of_isKeyword hword)
  constructor
  · rintro ⟨hword, hlooked, hspelled⟩
    obtain ⟨statement, hreads, hexports⟩ := exportStatement_of_matches (stream.classify.offset id)
      (fits_itemsFrom h (id + 1)) hspelled
    exact ⟨statement, ⟨hword, (hlooks hword).mp hlooked, hreads⟩, hexports⟩
  · rintro ⟨statement, ⟨hword, hreached, hreads⟩, rfl⟩
    exact ⟨hword, (hlooks hword).mpr hreached, matches_of_exportStatement hreads⟩

/-- **Exports follow their grammar.** An `export` that the pass looks at is accepted if and only if
the tokens behind it are those of an export statement. Then what the statement offers is recorded
behind what is recorded already; else the script is refused with an error at the statement. An
accepted script offers what its statements offer, each once, in the order of the source. -/
theorem exports_follow_grammar (exportsName : String) (h : tokenize source = .ok stream) :
    (∀ id state, LooksAt exportsName stream.classify id state →
      stream.classify.IsKeyword id "export" →
      ((∃ next, visit exportsName state id = .ok next) ↔
        ∃ exports, ExportStatement.Matches (stream.classify.itemsFrom (id + 1)) exports) ∧
      (∀ exports, ExportStatement.Matches (stream.classify.itemsFrom (id + 1)) exports →
        ∃ next, visit exportsName state id = .ok next ∧
          next.exports = state.exports ++ exports ∧ next.imports = state.imports) ∧
      ((¬ ∃ exports, ExportStatement.Matches (stream.classify.itemsFrom (id + 1)) exports) →
        ∃ error : Malformed,
          error.IsAt .exporting (stream.classify.offset id)
            (stream.classify.itemsFrom (id + 1)) ∧
          transform exportsName source = .error (.malformed error))) ∧
    ∀ script, transform exportsName source = .ok script →
      ∃ statements, InOrder (stream.classify.ExportsAt exportsName) stream.size statements ∧
        script.exports = (statements.map Prod.snd).flatten := by
  constructor
  · -- one visit: the reader of the statement decides
    intro id state hlooks hword
    obtain ⟨haccepts, hrefuses⟩ := hlooks.decides h hword (by
      rintro ⟨exports, hspelled⟩
      obtain ⟨next, hvisit, -⟩ := hlooks.visit_of_exported h hword hspelled
      exact ⟨next, hvisit⟩) (hlooks.export_cases h hword)
    exact ⟨haccepts, fun exports => hlooks.visit_of_exported h hword, hrefuses⟩
  · -- a run: all visits have been accepted
    intro script hscript
    obtain ⟨_, _, final, haccepted⟩ := accepted_of_transform hscript
    obtain ⟨statements, hstatements, hexports⟩ := haccepted.exports_eq
    obtain rfl := Except.ok.inj (h.symm.trans haccepted.tokens)
    refine ⟨_, hstatements.map ExportStatement.exports fun id exports =>
      exportsAt_iff h haccepted.rewrites, ?_⟩
    rw [hexports, List.map_map, ← List.flatMap_def, List.flatMap_map]
    rfl

/-- A statement inside another one. -/
def nestedExports : String := "export default export let a"

/-- The outer statement is accepted, and the script offers what both offer. -/
theorem nested_exports_are_parsed :
    ∃ stream, tokenize nestedExports = .ok stream ∧
      LooksAt "exports" stream.classify 0 ⟨stream.classify, [], [], 0⟩ ∧
      stream.classify.IsKeyword 0 "export" ∧
      (∃ exports, ExportStatement.Matches (stream.classify.itemsFrom 1) exports) ∧
      ∃ statements, InOrder (stream.classify.ExportsAt "exports") stream.size statements ∧
        [.default, .named "a" none] = (statements.map Prod.snd).flatten := by
  have hread : (tokenize nestedExports).toOption.map (fun stream =>
      (stream.classify.kind? 0, stream.classify.lexeme 0,
        (visit "exports" ⟨stream.classify, [], [], 0⟩ 0).toOption.isSome)) =
      some (some .keyword, "export", true) := by decide +kernel
  have hscript : transform "exports" nestedExports =
      .ok ⟨"   var a /* exported */", [], [.default, .named "a" none]⟩ :=
    eq_ok_of_toOption (by decide +kernel)
  cases hstream : tokenize nestedExports with
  | error error =>
    rw [hstream] at hread
    exact absurd hread (by simp [Except.toOption])
  | ok stream =>
    rw [hstream] at hread
    obtain ⟨hkind, hrest⟩ := Prod.mk.inj (Option.some.inj hread)
    obtain ⟨hlexeme, hvisit⟩ := Prod.mk.inj hrest
    have hlooks := LooksAt.start "exports" stream.classify
    obtain ⟨hstatements, hexports⟩ := exports_follow_grammar "exports" hstream
    obtain ⟨haccepts, -, -⟩ := hstatements 0 _ hlooks ⟨hkind, hlexeme⟩
    obtain ⟨next, hsome⟩ := Option.isSome_iff_exists.mp hvisit
    exact ⟨stream, rfl, hlooks, ⟨hkind, hlexeme⟩, haccepts.mp ⟨next, eq_ok_of_toOption hsome⟩,
      hexports _ hscript⟩

/-! ## An `as` without a name behind it -/

/-- The tokens of a list of specifiers, if the `as` behind a name can also be the next name. With
`Specifier.Spells` it never is. -/
inductive Specifier.Lists : List Item → List Specifier → Prop where
  | nil : Lists [] []
  | cons {name : Item} {taken comma rest : List Item} {newName : Option String}
      {specifiers : List Specifier} (hname : name.isName = true) (htaken : Renames taken newName)
      (hcomma : Item.IsOptional "," comma) (hrest : Lists rest specifiers) :
      Lists (name :: (taken ++ comma ++ rest)) (⟨name.text, newName⟩ :: specifiers)

/-- Two names, with the comma left out, of which the second one is `as`. -/
def danglingAs : String := "export \x7ba as\x7d"

/-- The `as` is not taken for a name, so the statement is refused although it lists two names. -/
theorem dangling_as_is_refused :
    ∃ stream, tokenize danglingAs = .ok stream ∧
      LooksAt "exports" stream.classify 0 ⟨stream.classify, [], [], 0⟩ ∧
      stream.classify.IsKeyword 0 "export" ∧
      (∃ opened entries closed, stream.classify.itemsFrom 1 = opened :: (entries ++ [closed]) ∧
        opened.text = "\x7b" ∧ Specifier.Lists entries [⟨"a", none⟩, ⟨"as", none⟩] ∧
        closed.text = "\x7d") ∧
      (¬ ∃ next, visit "exports" ⟨stream.classify, [], [], 0⟩ 0 = .ok next) ∧
      transform "exports" danglingAs = .error (.malformed ⟨.exporting, 10, .aliasName⟩) := by
  have hread : (tokenize danglingAs).toOption.map (fun stream =>
      (stream.classify.kind? 0, stream.classify.lexeme 0, stream.classify.itemsFrom 1,
        visit "exports" ⟨stream.classify, [], [], 0⟩ 0)) =
      some (some .keyword, "export", [⟨2, .bracket, "\x7b", 7⟩, ⟨3, .identifier, "a", 8⟩,
        ⟨5, .keyword, "as", 10⟩, ⟨6, .bracket, "\x7d", 12⟩],
        .error ⟨.exporting, 10, .aliasName⟩) := by decide +kernel
  -- neither of the two names has an alias here
  have hlisted : Specifier.Lists [⟨3, .identifier, "a", 8⟩, ⟨5, .keyword, "as", 10⟩]
      [⟨"a", none⟩, ⟨"as", none⟩] :=
    .cons rfl .unchanged (.inl rfl) (.cons rfl .unchanged (.inl rfl) .nil)
  cases hstream : tokenize danglingAs with
  | error error =>
    rw [hstream] at hread
    exact absurd hread (by simp [Except.toOption])
  | ok stream =>
    rw [hstream] at hread
    obtain ⟨hkind, hrest⟩ := Prod.mk.inj (Option.some.inj hread)
    obtain ⟨hlexeme, hrest⟩ := Prod.mk.inj hrest
    obtain ⟨hitems, hvisit⟩ := Prod.mk.inj hrest
    have hlooks := LooksAt.start "exports" stream.classify
    have hid := Ran.lt_size_of_isKeyword ⟨hkind, hlexeme⟩
    refine ⟨stream, rfl, hlooks, ⟨hkind, hlexeme⟩, ⟨_, _, _, hitems, rfl, hlisted, rfl⟩, ?_,
      transform_error hstream (hlooks.rewrite_error hid hvisit)⟩
    rintro ⟨next, hnext⟩
    exact absurd (hnext.symm.trans hvisit) (by simp)

end ScriptLink
