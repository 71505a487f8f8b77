import ScriptLink.Proofs.Step
import ScriptLink.Proofs.Tokenization
import ScriptLink.Proofs.ReservedWord

/-!
# What tokens of a kind look like

The kind of a token says something about its text: a name is a name, a string begins with a quote,
white space is nothing but blanks. The statements are read by kind in some places and by text in
others, so these are the facts that keep the two apart.

* **`TokenKind.Fits`** — the texts that go with a kind.
* **`Context.fits_of_scan`** — the pieces of a script fit their kinds.
* **`TokenStream.Fits`** — so do the tokens, also after the classification (`fits_classify`).
-/

namespace ScriptLink

/-- Whether a text goes with a kind, as far as statements depend on it. -/
def TokenKind.Fits : TokenKind → List Char → Prop
  | .identifier, text => Identifier.isName text = true
  | .keyword, text => Identifier.isName text = true ∨ text = ['=', '>']
  | .string, text => text.head? = some '\x22' ∨ text.head? = some '\x27'
  | .whitespace, text => ∀ c ∈ text, Unicode.isBlank c = true
  | .comment, text | .docComment, text => text.head? = some '/'
  | _, _ => True

namespace Context

variable {context : Context} {position : Nat} {c : Char} {rest : List Char} {step : Step}

theorem fits_of_codeStep (h : context.codeStep position c rest = .ok step) :
    step.kind ≠ .keyword ∧ step.kind.Fits (c :: step.tail) := by
  cases taken_of_codeStep h with
  | string hc => exact ⟨by simp [plain], hc.imp (congrArg some) (congrArg some)⟩
  | lineComment hc => exact ⟨by simp [plain], congrArg some hc⟩
  | blockComment hc _ hkind =>
    rcases hkind with rfl | rfl
    · exact ⟨by simp [plain], congrArg some hc⟩
    · exact ⟨by simp [plain], congrArg some hc⟩
  | name hc => exact ⟨by simp [plain], Bool.and_eq_true_iff.mpr ⟨hc, List.all_takeWhile⟩⟩
  | blanks hc => exact ⟨by simp [plain], forall_mem_cons_takeWhile hc rest⟩
  | _ => exact ⟨by simp [plain], trivial⟩

/-- What a step takes fits its kind, and it is no keyword yet. -/
theorem fits_of_step (h : context.step position c rest = .ok step) :
    step.kind ≠ .keyword ∧ step.kind.Fits (c :: step.tail) := by
  unfold Context.step at h
  split at h
  · exact fits_of_codeStep h
  · rcases templateStep_cases h with ⟨later, -, rfl⟩ | ⟨tail, closes, -, rfl⟩
    · exact ⟨by simp, trivial⟩
    · exact ⟨by simp, trivial⟩

end Context

namespace TokenStream

/-- Every token has a text that goes with its kind. -/
def Fits (stream : TokenStream) : Prop :=
  ∀ id kind, stream.kind? id = some kind → kind.Fits (stream.lexeme id).toList

theorem fits_of_tokenize {source : String} {stream : TokenStream}
    (h : tokenize source = .ok stream) :
    stream.Fits ∧ ∀ id, stream.kind? id ≠ some .keyword := by
  have hpieces := toPieces_of_tokenize h
  have hall := Context.forall_of_scan (fun kind text => kind ≠ .keyword ∧ kind.Fits text)
    Context.fits_of_step hpieces
  have htoken : ∀ id kind, stream.kind? id = some kind →
      kind ≠ .keyword ∧ kind.Fits (stream.lexeme id).toList := by
    intro id kind hkind
    obtain ⟨token, htoken, rfl⟩ := Option.map_eq_some_iff.mp hkind
    have hmem : token ∈ stream.tokens.toList := by
      obtain ⟨hid, heq⟩ := Array.getElem?_eq_some_iff.mp htoken
      rw [← heq]
      exact Array.getElem_mem_toList hid
    have hlexeme : stream.lexeme id = token.lexeme := by
      unfold lexeme
      rw [htoken]
      rfl
    rw [hlexeme]
    exact hall token.toPiece (List.mem_map_of_mem hmem)
  exact ⟨fun id kind hkind => (htoken id kind hkind).2,
    fun id hkind => (htoken id .keyword hkind).1 rfl⟩

/-- A promoted token is a name, or the arrow. -/
theorem fits_classify {stream : TokenStream} (h : stream.Fits) : stream.classify.Fits := by
  intro id kind hkind
  rw [kind?_classify] at hkind
  rw [lexeme_classify]
  by_cases hpromoted : stream.isPromoted id = true
  · rw [if_pos hpromoted] at hkind
    obtain rfl := Option.some.inj hkind
    unfold isPromoted at hpromoted
    split at hpromoted
    · right
      rw [eq_of_beq hpromoted]
      decide +kernel
    · next hidentifier => exact .inl (h id _ hidentifier)
    · exact absurd hpromoted (by simp)
  · rw [if_neg hpromoted] at hkind
    exact h id kind hkind

end TokenStream

end ScriptLink
