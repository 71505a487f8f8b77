import ScriptLink.Proofs.Frame

/-!
# Where the pass looks

What came before makes one difference to a visit of the pass: a token of a statement that has been
removed is passed over. Apart from that a visit is decided by the readers, on the stream as it was.
So the run goes through if the readers that it asks do, and it ends with the error of the first one
that does not.

* **`Rewriting.LooksAt`** — where the pass looks, and what it has done before. In a run that goes
  through these are the places that are reached (`exists_looksAt_iff`).
* **`Rewriting.LooksAt.visit_eq`** — the visit of a keyword. For `import` and `export` it is the
  reader (`visit_import`, `visit_export`).
* **`Rewriting.LooksAt.rewrite_error`** — an error of a visit is the error of the run, and
  **`Rewriting.reader_of_rewrite_error`**: an error of the run is the error of a reader.
-/

namespace ScriptLink

open TokenStream Rewriting

variable {exportsName source : String} {stream : TokenStream} {state final : Rewriting} {id : Nat}
  {error : Malformed}

/-- The pass comes to the token `id` without an error and looks at it: `state` is what has come of
the tokens before, and no statement removed there extends to `id`. -/
structure Rewriting.LooksAt (exportsName : String) (stream : TokenStream) (id : Nat)
    (state : Rewriting) : Prop where
  run : (List.range id).foldlM (visit exportsName) ⟨stream, [], [], 0⟩ = .ok state
  resume : state.resume ≤ id

namespace Rewriting

/-- A run that goes through goes through its first part. -/
theorem prefix_of_foldlM {count : Nat} {initial : Rewriting} (hle : id ≤ count)
    (h : (List.range count).foldlM (visit exportsName) initial = .ok final) :
    ∃ before, (List.range id).foldlM (visit exportsName) initial = .ok before := by
  induction hle generalizing final with
  | refl => exact ⟨final, h⟩
  | @step count _ ih =>
    obtain ⟨before, hbefore, -⟩ := visit_of_foldlM h
    exact ih hbefore

/-- What is known when the pass has visited the tokens before `id`. -/
theorem ran_before (h : tokenize source = .ok stream) (hid : id ≤ stream.classify.size)
    (hrun : (List.range id).foldlM (visit exportsName) ⟨stream.classify, [], [], 0⟩ = .ok state) :
    ∃ acts, Ran exportsName stream.classify acts id state :=
  ran_of_foldlM (fits_classify (fits_of_tokenize h).1) (linked_classify (linked_of_tokenize h))
    (replacement?_classify h) id hid hrun

/-- **In a run that goes through**, the pass looks at the tokens that are reached. -/
theorem exists_looksAt_iff (h : tokenize source = .ok stream)
    (hrewrite : stream.classify.rewrite exportsName = .ok final) (hid : id < stream.classify.size) :
    (∃ state, LooksAt exportsName stream.classify id state) ↔ stream.classify.Reached id := by
  constructor
  · rintro ⟨state, hlooks⟩
    obtain ⟨acts, hran⟩ := ran_before h (Nat.le_of_lt hid) hlooks.run
    have hreached := hran.reached
    rwa [Nat.max_eq_left hlooks.resume] at hreached
  · intro hreached
    obtain ⟨state, hrun⟩ := prefix_of_foldlM (Nat.le_of_lt hid) hrewrite
    obtain ⟨acts, hran⟩ := ran_before h (Nat.le_of_lt hid) hrun
    refine ⟨state, hrun, Nat.le_of_not_lt fun hskipped => ?_⟩
    exact hran.skipped id (Nat.le_refl id) hskipped hreached

/-- What comes of an `import`: a statement is recorded and removed, an expression stays. -/
def applyImport (state : Rewriting) (id : Nat) : Option ImportStatement → Rewriting
  | none => state
  | some statement => state.removeImport id statement

namespace LooksAt

/-- The pass begins at the first token. -/
theorem start (exportsName : String) (stream : TokenStream) :
    LooksAt exportsName stream 0 ⟨stream, [], [], 0⟩ := ⟨rfl, Nat.le_refl 0⟩

/-- **The visit of a keyword**, on the stream as it was: what has been written before does not show
in what a statement is read from. -/
theorem visit_eq (h : tokenize source = .ok stream)
    (hlooks : LooksAt exportsName stream.classify id state) {word : String}
    (hword : stream.classify.IsKeyword id word) :
    visit exportsName state id =
      if word = "let" ∨ word = "const" then
        .ok { state with stream := state.stream.replace id "var" }
      else if word = "export" then
        (exportStatement (stream.classify.offset id) (stream.classify.itemsFrom (id + 1))).map
          (state.applyExport exportsName id)
      else if word = "import" then
        (importStatement (stream.classify.offset id) (stream.classify.itemsFrom (id + 1))).map
          (state.applyImport id)
      else .ok state := by
  have hid := Ran.lt_size_of_isKeyword hword
  obtain ⟨acts, hran⟩ := ran_before h (Nat.le_of_lt hid) hlooks.run
  have hsame := hran.same
  unfold visit
  rw [if_neg (Nat.not_lt_of_le hlooks.resume), hsame.kind?, if_pos hword.kind]
  unfold visitKeyword
  dsimp only
  rw [hsame.lexeme, hword.reads, hsame.offset, hsame.itemsAfter,
    itemsAfter_eq (linked_classify (linked_of_tokenize h)) hid]
  rfl

/-- The visit of an `import` is its reader. -/
theorem visit_import (h : tokenize source = .ok stream)
    (hlooks : LooksAt exportsName stream.classify id state)
    (hword : stream.classify.IsKeyword id "import") :
    visit exportsName state id =
      (importStatement (stream.classify.offset id) (stream.classify.itemsFrom (id + 1))).map
        (state.applyImport id) := by
  rw [hlooks.visit_eq h hword, if_neg (by decide), if_neg (by decide), if_pos rfl]

/-- The visit of an `export` is its reader. -/
theorem visit_export (h : tokenize source = .ok stream)
    (hlooks : LooksAt exportsName stream.classify id state)
    (hword : stream.classify.IsKeyword id "export") :
    visit exportsName state id =
      (exportStatement (stream.classify.offset id) (stream.classify.itemsFrom (id + 1))).map
        (state.applyExport exportsName id) := by
  rw [hlooks.visit_eq h hword, if_neg (by decide), if_pos rfl]

/-- **An error of a visit** ends the run: no later token is looked at. -/
theorem rewrite_error (h : LooksAt exportsName stream id state) (hid : id < stream.size)
    (hvisit : visit exportsName state id = .error error) :
    stream.rewrite exportsName = .error error := by
  have hall : ∀ count, id < count →
      (List.range count).foldlM (visit exportsName) ⟨stream, [], [], 0⟩ = .error error := by
    intro count hlt
    -- by induction on the tokens behind it, none of which is visited
    induction count with
    | zero => exact absurd hlt (Nat.not_lt_zero id)
    | succ count ih =>
      rw [List.range_succ, List.foldlM_append]
      rcases Nat.lt_or_eq_of_le (Nat.le_of_lt_succ hlt) with hbefore | rfl
      · rw [ih hbefore]
        rfl
      · rw [h.run]
        show ([id].foldlM (visit exportsName) state) = _
        rw [List.foldlM_cons, hvisit]
        rfl
  exact hall stream.size hid

end LooksAt

/-- A run that fails fails at a token that it looks at. -/
theorem looksAt_of_foldlM_error {count : Nat}
    (h : (List.range count).foldlM (visit exportsName) ⟨stream, [], [], 0⟩ = .error error) :
    ∃ id state, id < count ∧ LooksAt exportsName stream id state ∧
      visit exportsName state id = .error error := by
  induction count with
  | zero => exact absurd h (by simp [pure, Except.pure])
  | succ count ih =>
    rw [List.range_succ, List.foldlM_append] at h
    cases hbefore : (List.range count).foldlM (visit exportsName) ⟨stream, [], [], 0⟩ with
    | error found =>
      rw [hbefore] at h
      obtain rfl := Except.error.inj h
      obtain ⟨id, state, hid, hlooks⟩ := ih hbefore
      exact ⟨id, state, Nat.lt_succ_of_lt hid, hlooks⟩
    | ok before =>
      have hvisit : visit exportsName before count = .error error := by
        rw [hbefore] at h
        cases hvisit : visit exportsName before count with
        | error found => simpa [bind, Except.bind, List.foldlM_cons, hvisit] using h
        | ok next => simp [bind, Except.bind, List.foldlM_cons, hvisit, pure, Except.pure] at h
      refine ⟨count, before, Nat.lt_succ_self count,
        ⟨hbefore, Nat.le_of_not_lt fun hskipped => ?_⟩, hvisit⟩
      unfold visit at hvisit
      rw [if_pos hskipped] at hvisit
      exact absurd hvisit (by simp)

/-- **An error of a run** is the error of a reader, at a token that the pass looks at. -/
theorem reader_of_rewrite_error (h : tokenize source = .ok stream)
    (hrewrite : stream.classify.rewrite exportsName = .error error) :
    ∃ id state, LooksAt exportsName stream.classify id state ∧
      (stream.classify.IsKeyword id "export" ∧
          exportStatement (stream.classify.offset id) (stream.classify.itemsFrom (id + 1)) =
            .error error ∨
        stream.classify.IsKeyword id "import" ∧
          importStatement (stream.classify.offset id) (stream.classify.itemsFrom (id + 1)) =
            .error error) := by
  obtain ⟨id, state, hid, hlooks, hvisit⟩ := looksAt_of_foldlM_error hrewrite
  refine ⟨id, state, hlooks, ?_⟩
  by_cases hkind : stream.classify.kind? id = some .keyword
  · have hword : stream.classify.IsKeyword id (stream.classify.lexeme id) := ⟨hkind, rfl⟩
    rw [hlooks.visit_eq h hword] at hvisit
    split at hvisit
    · exact absurd hvisit (by simp)
    · split at hvisit
      · next hexport => exact .inl ⟨⟨hkind, hexport⟩, error_of_map_eq_error hvisit⟩
      · split at hvisit
        · next himport => exact .inr ⟨⟨hkind, himport⟩, error_of_map_eq_error hvisit⟩
        · exact absurd hvisit (by simp)
  · -- any other token is left alone
    obtain ⟨acts, hran⟩ := ran_before h (Nat.le_of_lt hid) hlooks.run
    unfold visit at hvisit
    rw [if_neg (Nat.not_lt_of_le hlooks.resume), hran.same.kind?, if_neg hkind] at hvisit
    exact absurd hvisit (by simp)

end Rewriting

theorem transform_of_rewrite (h : tokenize source = .ok stream)
    (hrewrite : stream.classify.rewrite exportsName = .ok final) :
    transform exportsName source = .ok ⟨final.stream.render, final.imports, final.exports⟩ := by
  unfold transform
  rw [h]
  dsimp only
  rw [hrewrite]

theorem transform_error (h : tokenize source = .ok stream)
    (hrewrite : stream.classify.rewrite exportsName = .error error) :
    transform exportsName source = .error (.malformed error) := by
  unfold transform
  rw [h]
  dsimp only
  rw [hrewrite]

/-- **A statement is accepted just if it is in the grammar**, if the visit of its keyword fails
with an error of its own whenever it is not, and then this is the error of the script. -/
theorem Rewriting.LooksAt.decides {word : String} {spelled : Prop} {own : Malformed → Prop}
    (h : tokenize source = .ok stream) (hlooks : LooksAt exportsName stream.classify id state)
    (hword : stream.classify.IsKeyword id word)
    (haccepts : spelled → ∃ next, visit exportsName state id = .ok next)
    (hcases : spelled ∨ ∃ error, own error ∧ visit exportsName state id = .error error) :
    ((∃ next, visit exportsName state id = .ok next) ↔ spelled) ∧
      (¬ spelled → ∃ error, own error ∧
        transform exportsName source = .error (.malformed error)) := by
  refine ⟨⟨?_, haccepts⟩, ?_⟩
  · rintro ⟨next, hnext⟩
    rcases hcases with hspelled | ⟨error, -, herror⟩
    · exact hspelled
    · exact absurd (hnext.symm.trans herror) (by simp)
  · intro hnot
    rcases hcases with hspelled | ⟨error, hown, herror⟩
    · exact absurd hspelled hnot
    · have hid := Ran.lt_size_of_isKeyword hword
      exact ⟨error, hown, transform_error h (hlooks.rewrite_error hid herror)⟩

end ScriptLink
