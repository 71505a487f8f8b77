import ScriptLink.Proofs.Frame
import ScriptLink.Proofs.SourceOrder

/-!
# The exports of a script

The export statements of a stream are told apart from other uses of the word, and what a rewritten
script offers is what they offer, in the order of the source.

* **`ExportStatement.exports`** — what one statement offers.
* **`TokenStream.BeginsExport`** — where an export statement begins, and which one it is.
* **`Accepted.exports_eq`** — the law.
-/

namespace ScriptLink

variable {exportsName source : String} {stream : TokenStream} {script : Script}
  {state next : Rewriting} {acts : Nat → Act} {id : Nat}

/-- What an export statement offers. -/
def ExportStatement.exports : ExportStatement → List Export
  | .default _ _ => [.default]
  | .clause specifiers _ => specifiers.map fun specifier => .named specifier.name specifier.newName
  | .declaration name => [.named name.text none]

/-- An export statement begins at the token, which is no part of a statement before it. -/
structure TokenStream.BeginsExport (stream : TokenStream) (id : Nat) (statement : ExportStatement) :
    Prop where
  word : stream.IsKeyword id "export"
  reached : stream.Reached id
  reads : exportStatement (stream.offset id) (stream.itemsFrom (id + 1)) = .ok statement

theorem TokenStream.BeginsExport.unique {statement other : ExportStatement}
    (h : stream.BeginsExport id statement) (h' : stream.BeginsExport id other) :
    other = statement :=
  Except.ok.inj (h'.reads.symm.trans h.reads)

namespace Rewriting

theorem exports_applyExport (state : Rewriting) (statement : ExportStatement) :
    (state.applyExport exportsName id statement).exports = state.exports ++ statement.exports := by
  cases statement <;> rfl

/-- **What a visit records**: what the statement that begins at its token offers, if there is
one. -/
theorem Course.exports {statements : List ExportStatement}
    (h : Course exportsName stream state id next) (hreached : stream.Reached id)
    (hrecorded : state.exports = statements.flatMap ExportStatement.exports) :
    (∃ statement, stream.BeginsExport id statement ∧
        next.exports = (statements ++ [statement]).flatMap ExportStatement.exports) ∨
      (∀ statement, ¬ stream.BeginsExport id statement) ∧
        next.exports = statements.flatMap ExportStatement.exports := by
  cases h with
  | shorten hword =>
    refine .inr ⟨fun statement hbegins => ?_, hrecorded⟩
    rcases hword with hword | hword <;> exact absurd (hword.unique hbegins.word) (by decide)
  | @exporting statement hword hreads =>
    refine .inl ⟨statement, ⟨hword, hreached, hreads⟩, ?_⟩
    rw [exports_applyExport, hrecorded, List.flatMap_append, List.flatMap_singleton]
  | importing hword hreads =>
    refine .inr ⟨fun statement hbegins => ?_, hrecorded⟩
    exact absurd (hword.unique hbegins.word) (by decide)
  | dynamic hword hreads =>
    refine .inr ⟨fun statement hbegins => ?_, hrecorded⟩
    exact absurd (hword.unique hbegins.word) (by decide)
  | other hother =>
    exact .inr ⟨fun statement hbegins => hother "export" (by simp) hbegins.word, hrecorded⟩

end Rewriting

/-- **The exports of a script are those of its export statements**, in the order of the source. -/
theorem Accepted.exports_eq (h : Accepted exportsName source script stream acts state) :
    ∃ statements, InOrder stream.classify.BeginsExport stream.size statements ∧
      script.exports = (statements.map Prod.snd).flatMap ExportStatement.exports := by
  obtain ⟨statements, hstatements, hexports⟩ := Rewriting.recorded_of_foldlM
    stream.classify.BeginsExport
    (fun state statements => state.exports = statements.flatMap ExportStatement.exports)
    h.fits h.linked (replacement?_classify h.tokens)
    (fun _ _ hbegins => hbegins.reached) (fun _ _ _ hbegins => hbegins.unique) rfl
    (fun _ _ _ _ hreached hcourse => hcourse.exports hreached) _ (Nat.le_refl _) h.rewrites
  rw [TokenStream.size_classify] at hstatements
  exact ⟨statements, hstatements, by rw [h.script, hexports]⟩

end ScriptLink
