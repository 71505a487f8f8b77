import ScriptLink.Proofs.ImportOrder
import ScriptLink.Proofs.ImportReading
import ScriptLink.Proofs.Looking

/-!
# Which imports a script can have

The reader of imports decides the grammar. What this comes to for a script is a matter of the pass.
A statement that is in the grammar is recorded and the pass goes on behind it; the first one that is
not ends the pass with an error. So an accepted script has recorded all of its statements.

* **`Rewriting.LooksAt.import_cases`** — the two ways that the visit of an `import` can go.
* **`TokenStream.ImportsAt`** — where the pass looks at a statement of the grammar, with its path and
  its bindings.
* **`imports_follow_grammar`** — the law.
-/

namespace ScriptLink

open TokenStream Rewriting

variable {exportsName source : String} {stream : TokenStream} {state final : Rewriting} {id : Nat}
  {error : Malformed}

namespace Rewriting.LooksAt

variable {path : String} {bindings : List Binding}

/-- A statement in the grammar is recorded and removed. -/
theorem visit_of_matches (h : tokenize source = .ok stream)
    (hlooks : LooksAt exportsName stream.classify id state)
    (hword : stream.classify.IsKeyword id "import") (hstatic : ¬ stream.classify.IsDynamic id)
    (hspelled : ImportStatement.Matches (stream.classify.itemsFrom (id + 1)) path bindings) :
    ∃ last, visit exportsName state id =
      .ok (state.removeImport id ⟨path, bindings, last⟩) := by
  have hvisit := hlooks.visit_import h hword
  obtain ⟨last, hreads⟩ := importStatement_of_matches (behindImport h hword) hstatic hspelled
  rw [hreads] at hvisit
  exact ⟨last, hvisit⟩

/-- **The two ways an `import` can go**: it is in the grammar, or the visit fails at it. -/
theorem import_cases (h : tokenize source = .ok stream)
    (hlooks : LooksAt exportsName stream.classify id state)
    (hword : stream.classify.IsKeyword id "import") (hstatic : ¬ stream.classify.IsDynamic id) :
    (∃ path bindings,
      ImportStatement.Matches (stream.classify.itemsFrom (id + 1)) path bindings) ∨
    ∃ error : Malformed,
      error.IsAt .importing (stream.classify.offset id) (stream.classify.itemsFrom (id + 1)) ∧
        visit exportsName state id = .error error := by
  have hvisit := hlooks.visit_import h hword
  cases hreads : importStatement (stream.classify.offset id)
    (stream.classify.itemsFrom (id + 1)) with
  | error error =>
    rw [hreads] at hvisit
    exact .inr ⟨error, isAt_of_importStatement hreads, hvisit⟩
  | ok found =>
    cases found with
    | none => exact absurd (importStatement_split hreads) hstatic
    | some statement =>
      exact .inl ⟨_, _, matches_of_importStatement (behindImport h hword) hreads⟩

end Rewriting.LooksAt

/-! ## The imports of a script -/

/-- The pass looks at an import statement with this path and these bindings. -/
structure TokenStream.ImportsAt (exportsName : String) (stream : TokenStream) (id : Nat)
    (entry : String × List Binding) : Prop where
  word : stream.IsKeyword id "import"
  static : ¬ stream.IsDynamic id
  looks : ∃ state, LooksAt exportsName stream id state
  spelled : ImportStatement.Matches (stream.itemsFrom (id + 1)) entry.1 entry.2

/-- In an accepted script, these are the statements that are read. -/
theorem importsAt_iff (h : tokenize source = .ok stream)
    (hrewrite : stream.classify.rewrite exportsName = .ok final)
    {entry : String × List Binding} :
    stream.classify.ImportsAt exportsName id entry ↔
      ∃ statement, stream.classify.BeginsImport id statement ∧ statement.entry = entry := by
  have hlooks (hword : stream.classify.IsKeyword id "import") :=
    exists_looksAt_iff h hrewrite (Ran.lt_size_of_isKeyword hword)
  constructor
  · rintro ⟨hword, hstatic, hlooked, hspelled⟩
    obtain ⟨last, hreads⟩ := importStatement_of_matches (behindImport h hword) hstatic hspelled
    exact ⟨_, ⟨hword, (hlooks hword).mp hlooked, hreads⟩, rfl⟩
  · rintro ⟨statement, ⟨hword, hreached, hreads⟩, rfl⟩
    refine ⟨hword, ?_, (hlooks hword).mpr hreached,
      matches_of_importStatement (behindImport h hword) hreads⟩
    -- an expression is read as no statement
    rintro ⟨next, rest, hitems, hnext⟩
    rw [hitems, importStatement_of_dynamic hnext] at hreads
    exact absurd hreads (by simp)

/-- **Imports follow their grammar.** An `import` that the pass looks at, and that does not begin an
expression, is accepted if and only if the tokens behind it are those of an import statement. Then
the path and the bindings are recorded; else the script is refused with an error at the statement.
An accepted script has each path where it is seen first, with the bindings of all its statements in
the order of the source. -/
theorem imports_follow_grammar (exportsName : String) (h : tokenize source = .ok stream) :
    (∀ id state, LooksAt exportsName stream.classify id state →
      stream.classify.IsKeyword id "import" → ¬ stream.classify.IsDynamic id →
      ((∃ next, visit exportsName state id = .ok next) ↔
        ∃ path bindings,
          ImportStatement.Matches (stream.classify.itemsFrom (id + 1)) path bindings) ∧
      (∀ path bindings,
        ImportStatement.Matches (stream.classify.itemsFrom (id + 1)) path bindings →
        ∃ last, visit exportsName state id =
          .ok (state.removeImport id ⟨path, bindings, last⟩)) ∧
      ((¬ ∃ path bindings,
          ImportStatement.Matches (stream.classify.itemsFrom (id + 1)) path bindings) →
        ∃ error : Malformed,
          error.IsAt .importing (stream.classify.offset id)
            (stream.classify.itemsFrom (id + 1)) ∧
          transform exportsName source = .error (.malformed error))) ∧
    ∀ script, transform exportsName source = .ok script →
      ∃ statements, InOrder (stream.classify.ImportsAt exportsName) stream.size statements ∧
        script.imports = ((statements.map Prod.snd).map Prod.fst).eraseDups.map fun path =>
          (path, ImportMap.boundBy (statements.map Prod.snd) path) := by
  constructor
  · -- one visit: the reader of the statement decides
    intro id state hlooks hword hstatic
    obtain ⟨haccepts, hrefuses⟩ := hlooks.decides h hword (by
      rintro ⟨path, bindings, hspelled⟩
      obtain ⟨last, hvisit⟩ := hlooks.visit_of_matches h hword hstatic hspelled
      exact ⟨_, hvisit⟩) (hlooks.import_cases h hword hstatic)
    exact ⟨haccepts, fun path bindings => hlooks.visit_of_matches h hword hstatic, hrefuses⟩
  · -- a run: all visits have been accepted
    intro script hscript
    obtain ⟨_, _, final, haccepted⟩ := accepted_of_transform hscript
    obtain ⟨_, statements, hstream, hstatements, himports⟩ := imports_of_transform hscript
    obtain rfl := Except.ok.inj (h.symm.trans haccepted.tokens)
    obtain rfl := Except.ok.inj (h.symm.trans hstream)
    have hordered : InOrder stream.classify.BeginsImport stream.size statements :=
      ⟨hstatements.sorted, hstatements.mem_iff⟩
    have hentries : (statements.map fun entry => (entry.1, entry.2.entry)).map Prod.snd =
        statements.map (·.2.entry) := List.map_map
    refine ⟨_, hordered.map ImportStatement.entry fun id entry =>
      importsAt_iff h haccepted.rewrites, ?_⟩
    rw [hentries, himports, ImportMap.collect_eq]

/-- Two statements for one path, the first one with most commas left out. -/
def mergedImports : String := "import a {b as c d}from\x22p\x22;import\x27p\x27"

/-- The first statement is accepted, and the map has the bindings of both under their path. -/
theorem merged_imports_are_parsed :
    ∃ stream, tokenize mergedImports = .ok stream ∧
      LooksAt "exports" stream.classify 0 ⟨stream.classify, [], [], 0⟩ ∧
      stream.classify.IsKeyword 0 "import" ∧ ¬ stream.classify.IsDynamic 0 ∧
      (∃ path bindings,
        ImportStatement.Matches (stream.classify.itemsFrom 1) path bindings) ∧
      ∃ statements, InOrder (stream.classify.ImportsAt "exports") stream.size statements ∧
        [("p", [.default "a", .named "b" (some "c"), .named "d" none])] =
          ((statements.map Prod.snd).map Prod.fst).eraseDups.map fun path =>
            (path, ImportMap.boundBy (statements.map Prod.snd) path) := by
  have hread : (tokenize mergedImports).toOption.map (fun stream =>
      (stream.classify.kind? 0, stream.classify.lexeme 0,
        (stream.classify.itemsFrom 1).head?.map Item.text,
        (visit "exports" ⟨stream.classify, [], [], 0⟩ 0).toOption.isSome)) =
      some (some .keyword, "import", some "a", true) := by decide +kernel
  have hscript : transform "exports" mergedImports = .ok ⟨"",
      [("p", [.default "a", .named "b" (some "c"), .named "d" none])], []⟩ :=
    eq_ok_of_toOption (by decide +kernel)
  cases hstream : tokenize mergedImports with
  | error error =>
    rw [hstream] at hread
    exact absurd hread (by simp [Except.toOption])
  | ok stream =>
    rw [hstream] at hread
    obtain ⟨hkind, hrest⟩ := Prod.mk.inj (Option.some.inj hread)
    obtain ⟨hlexeme, hrest⟩ := Prod.mk.inj hrest
    obtain ⟨hnext, hvisit⟩ := Prod.mk.inj hrest
    have hlooks : LooksAt "exports" stream.classify 0 ⟨stream.classify, [], [], 0⟩ :=
      ⟨rfl, Nat.le_refl 0⟩
    have hstatic : ¬ stream.classify.IsDynamic 0 := by
      rintro ⟨next, rest, hitems, hparen⟩
      rw [hitems] at hnext
      rw [show next.text = "a" from Option.some.inj hnext] at hparen
      exact absurd hparen (by decide)
    obtain ⟨hstatements, hmap⟩ := imports_follow_grammar "exports" hstream
    obtain ⟨haccepts, -, -⟩ := hstatements 0 _ hlooks ⟨hkind, hlexeme⟩ hstatic
    obtain ⟨next, hsome⟩ := Option.isSome_iff_exists.mp hvisit
    exact ⟨stream, rfl, hlooks, ⟨hkind, hlexeme⟩, hstatic,
      haccepts.mp ⟨next, eq_ok_of_toOption hsome⟩, hmap _ hscript⟩

end ScriptLink
