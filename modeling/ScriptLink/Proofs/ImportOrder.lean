import ScriptLink.Proofs.Collecting
import ScriptLink.Proofs.Frame
import ScriptLink.Proofs.SourceOrder

/-!
# The imports of a script

A keyword `import` need not begin a statement: it can be a name in the list of another statement, or
an expression. Here the import statements of a stream are told apart from those, and the map of a
rewritten script is what they fill, in the order of the source.

* **`TokenStream.BeginsImport`** — where an import statement begins, and which one it is.
* **`Rewriting.Course.imports`** — a visit records the statement that begins at its token, or
  nothing.
* **`imports_of_transform`** — the law.
-/

namespace ScriptLink

namespace TokenStream

variable {stream : TokenStream} {id count : Nat} {statement : ImportStatement}
  {statements : List (Nat × ImportStatement)}

/-- An import statement begins at the token, which is no part of a statement before it. -/
structure BeginsImport (stream : TokenStream) (id : Nat) (statement : ImportStatement) : Prop where
  word : stream.IsKeyword id "import"
  reached : stream.Reached id
  reads : importStatement (stream.offset id) (stream.itemsFrom (id + 1)) = .ok (some statement)

theorem BeginsImport.unique {other : ImportStatement} (h : stream.BeginsImport id statement)
    (h' : stream.BeginsImport id other) : other = statement :=
  Option.some.inj (Except.ok.inj (h'.reads.symm.trans h.reads))

/-- These are the import statements that begin at the first `count` tokens, in order. -/
structure ImportsBefore (stream : TokenStream) (count : Nat)
    (statements : List (Nat × ImportStatement)) : Prop where
  sorted : statements.Pairwise fun first second => first.1 < second.1
  mem_iff : ∀ id statement,
    (id, statement) ∈ statements ↔ id < count ∧ stream.BeginsImport id statement

/-- There are no more statements than tokens. -/
theorem ImportsBefore.length_le (h : stream.ImportsBefore count statements) :
    statements.length ≤ count :=
  InOrder.length_le ⟨h.sorted, h.mem_iff⟩

end TokenStream

namespace Rewriting

open TokenStream

variable {exportsName : String} {stream : TokenStream} {state next : Rewriting} {id : Nat}
  {requests : List ImportStatement}

theorem imports_applyExport (state : Rewriting) (statement : ExportStatement) :
    (state.applyExport exportsName id statement).imports = state.imports := by
  cases statement <;> rfl

/-- **What a visit records**: the statement that begins at its token, if there is one. -/
theorem Course.imports (h : Course exportsName stream state id next)
    (hreached : stream.Reached id)
    (hrecorded : state.imports = ImportMap.collect (requests.map (·.entry))) :
    (∃ statement, stream.BeginsImport id statement ∧
        next.imports = ImportMap.collect ((requests ++ [statement]).map (·.entry))) ∨
      (∀ statement, ¬ stream.BeginsImport id statement) ∧
        next.imports = ImportMap.collect (requests.map (·.entry)) := by
  cases h with
  | shorten hword =>
    refine .inr ⟨fun statement hbegins => ?_, hrecorded⟩
    rcases hword with hword | hword <;> exact absurd (hword.unique hbegins.word) (by decide)
  | exporting hword hreads =>
    refine .inr ⟨fun statement hbegins => ?_, (imports_applyExport state _).trans hrecorded⟩
    exact absurd (hword.unique hbegins.word) (by decide)
  | @importing statement hword hreads =>
    refine .inl ⟨statement, ⟨hword, hreached, hreads⟩, ?_⟩
    rw [List.map_append, List.map_singleton, ImportMap.collect_append_singleton, ← hrecorded]
    rfl
  | dynamic hword hreads =>
    refine .inr ⟨fun statement hbegins => ?_, hrecorded⟩
    exact absurd (hreads.symm.trans hbegins.reads) (by simp)
  | other hother =>
    exact .inr ⟨fun statement hbegins => hother "import" (by simp) hbegins.word, hrecorded⟩

end Rewriting

/-- **The imports of a script are those of its import statements**, collected in the order of the
source. -/
theorem imports_of_transform {exportsName source : String} {script : Script}
    (h : transform exportsName source = .ok script) :
    ∃ stream statements, tokenize source = .ok stream ∧
      stream.classify.ImportsBefore stream.size statements ∧
      script.imports = ImportMap.collect (statements.map (·.2.entry)) := by
  obtain ⟨stream, acts, state, haccepted⟩ := accepted_of_transform h
  obtain ⟨statements, hstatements, himports⟩ := Rewriting.recorded_of_foldlM
    stream.classify.BeginsImport
    (fun state requests => state.imports = ImportMap.collect (requests.map (·.entry)))
    haccepted.fits haccepted.linked (replacement?_classify haccepted.tokens)
    (fun _ _ hbegins => hbegins.reached) (fun _ _ _ hbegins => hbegins.unique) rfl
    (fun _ _ _ _ hreached hcourse => hcourse.imports hreached) _ (Nat.le_refl _) haccepted.rewrites
  rw [TokenStream.size_classify] at hstatements
  rw [List.map_map] at himports
  exact ⟨stream, statements, haccepted.tokens, ⟨hstatements.sorted, hstatements.mem_iff⟩,
    by rw [haccepted.script, himports]; rfl⟩

end ScriptLink
