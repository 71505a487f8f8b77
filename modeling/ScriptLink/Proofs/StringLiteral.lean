import ScriptLink.Proofs.Shape

/-!
# String literals

A string is the one piece that a quote begins in program text. It ends with the same quote, and what
stands between the two is what the search for the closing quote passes over.

* **`Context.quoted_of_step`** — the step that takes a string.
* **`IsQuoted`**, **`isQuoted_of_tokenize`** — the text of every string: a quote, what it holds, and
  the same quote.
-/

namespace ScriptLink

/-- The text stands between two quotes of one kind. -/
def IsQuoted (text : List Char) : Prop :=
  ∃ quote body, (quote = '\x22' ∨ quote = '\x27') ∧ text = quote :: (body ++ [quote])

namespace Context

variable {context : Context} {position : Nat} {c : Char} {rest : List Char} {step : Step}

/-- A step that takes a string begins at a quote in program text, and has found the other one. -/
theorem quoted_of_step (h : context.step position c rest = .ok step) (hkind : step.kind = .string) :
    context.mode = .code ∧ Lead.of c = .quote ∧
      ∃ body, Quoted.body? c rest = some body ∧ step = context.plain .string (body ++ [c]) := by
  unfold Context.step at h
  split at h
  · next hcode =>
    cases taken_of_codeStep h with
    | string hc hbody => exact ⟨hcode, by rcases hc with rfl | rfl <;> decide, _, hbody, rfl⟩
    -- no other piece is a string
    | blockComment _ _ hother => rcases hother with rfl | rfl <;> exact absurd hkind (by simp [plain])
    | _ => exact absurd hkind (by simp [plain])
  · rcases templateStep_cases h with ⟨later, -, rfl⟩ | ⟨tail, closes, -, rfl⟩ <;>
      exact absurd hkind (by simp)

end Context

/-- **The text of every string of a script** stands between its quotes. -/
theorem isQuoted_of_tokenize {source : String} {stream : TokenStream}
    (h : tokenize source = .ok stream) {id : Nat} (hkind : stream.kind? id = some .string) :
    IsQuoted (stream.lexeme id).toList := by
  have hall : ∀ piece ∈ stream.toPieces, piece.kind = .string → IsQuoted piece.text := by
    refine Context.forall_of_scan (fun kind text => kind = .string → IsQuoted text) ?_
      (toPieces_of_tokenize h)
    intro context position c rest step hstep hstring
    obtain ⟨-, hlead, body, -, rfl⟩ := Context.quoted_of_step hstep hstring
    have hquote := Lead.admits_of c
    rw [hlead] at hquote
    exact ⟨c, body, hquote, rfl⟩
  obtain ⟨token, htoken, hstring⟩ := Option.map_eq_some_iff.mp hkind
  have hmem : token ∈ stream.tokens.toList := by
    obtain ⟨hid, rfl⟩ := Array.getElem?_eq_some_iff.mp htoken
    exact Array.getElem_mem_toList hid
  have hlexeme : stream.lexeme id = token.lexeme := by
    unfold TokenStream.lexeme
    rw [htoken]
    rfl
  rw [hlexeme]
  exact hall token.toPiece (List.mem_map_of_mem hmem) hstring

end ScriptLink
