import ScriptLink.Proofs.ExportOrder
import ScriptLink.Proofs.Written
import ScriptLink.Session.Poll

/-!
# Where exports are assigned

A default export is assigned in the body, by a text that is written in place of the token behind
`default`. That token is visited later in the same pass. If it is a keyword that the pass acts on,
the visit writes there again, and the assignment is lost. All other exports are assigned behind the
body, by one line each.

* **`TokenStream.IsOverwritten`** — the tokens that write to themselves.
* **`Rewriting.Ran.written_of_target`** — what becomes of the token behind `default`.
* **`exports_are_assigned`** — the law, and `default_can_be_lost`: where it leaves an export
  without an assignment.
-/

namespace ScriptLink

open TokenStream Rewriting

variable {exportsName source : String} {script : Script} {stream : TokenStream}
  {state : Rewriting} {acts : Nat → Act} {id first : Nat} {keyword target : Item}
  {rest : List Item}

/-! ## The target of a default export -/

theorem Act.assigned_eq (exportsName target : String) :
    Act.assigned exportsName target = exportsName ++ ".default = " ++ target := by
  unfold Act.assigned defaultName
  simp only [String.append_assoc]
  congr 1

namespace TokenStream

/-- The pass writes to the token for its own sake: it is a keyword that is shortened or goes, or
the import statement that begins there is removed. -/
def IsOverwritten (stream : TokenStream) (id : Nat) : Prop :=
  (∃ word ∈ ["let", "const", "export"], stream.IsKeyword id word) ∨
    stream.IsKeyword id "import" ∧ ¬ stream.IsDynamic id

/-- The pass does nothing at a token that does not write to itself. -/
theorem Does.eq_idle_or_isOverwritten {act : Act} (hfits : stream.Fits) (h : stream.Does id act) :
    act = .idle ∨ stream.IsOverwritten id := by
  cases h with
  | idle hother himport => exact .inl rfl
  | shorten hword =>
    right
    left
    rcases hword with hlet | hconst
    · exact ⟨"let", by simp, hlet⟩
    · exact ⟨"const", by simp, hconst⟩
  | assign hexport _ _ => exact .inr (.inl ⟨"export", by simp, hexport⟩)
  | declare hexport _ _ _ => exact .inr (.inl ⟨"export", by simp, hexport⟩)
  | remove hremoval =>
    right
    rcases hremoval.isKeyword with hexport | himport
    · exact .inl ⟨"export", by simp, hexport⟩
    · refine .inr ⟨himport, fun hdynamic => ?_⟩
      exact hremoval.not_dynamic hfits (Nat.le_refl _) (Nat.le_of_lt hremoval.lt) himport hdynamic

/-- Between the keyword of a default export and its target, no statement begins. -/
theorem not_statement_of_default {k : Nat}
    (hitems : stream.itemsFrom (first + 1) = keyword :: target :: rest)
    (hdefault : keyword.text = defaultName) (hfirst : first < k) (htarget : k < target.id) :
    ¬ stream.IsKeyword k "export" ∧ ¬ stream.IsKeyword k "import" := by
  have hparts : stream.itemsFrom (first + 1) = [keyword] ++ target :: rest := hitems
  refine not_statement_of_between hparts (fun other hmem => ?_) hfirst htarget
  rw [List.mem_singleton.mp hmem, hdefault]
  decide

/-- The pass looks at the token behind `default`: from the keyword of the export on, no statement
is removed before it. -/
theorem reached_of_default (hfits : stream.Fits) (hreached : stream.Reached first)
    (hword : stream.IsKeyword first "export")
    (hitems : stream.itemsFrom (first + 1) = keyword :: target :: rest)
    (hdefault : keyword.text = defaultName) : stream.Reached target.id := by
  have hlt := (itemsFrom_split [keyword] hitems).1
  refine hreached.through (by omega) fun k hfirst htarget last hremoval => ?_
  rcases Nat.eq_or_lt_of_le hfirst with rfl | hbetween
  · have hact := (Does.assign hword hitems hdefault).eq_remove hfits hremoval
    exact absurd hact (by simp)
  · obtain ⟨hexport, himport⟩ := not_statement_of_default hitems hdefault hbetween htarget
    exact hremoval.isKeyword.elim hexport himport

end TokenStream

namespace Rewriting.Ran

/-- What a token writes to itself is nothing or `var`. -/
theorem written_of_isOverwritten (hfits : stream.Fits)
    (h : Ran exportsName stream acts stream.size state) (hreached : stream.Reached id)
    (hover : stream.IsOverwritten id) :
    state.stream.written id = "" ∨ state.stream.written id = "var" := by
  rcases hover with ⟨word, hmem, hword⟩ | ⟨himport, hstatic⟩
  · simp only [List.mem_cons, List.not_mem_nil, or_false] at hmem
    rcases hmem with rfl | rfl | rfl
    · exact .inr (h.written_of_shortened (.inl hword) hreached)
    · exact .inr (h.written_of_shortened (.inr hword) hreached)
    · exact .inl (h.written_of_exporting hfits hword)
  · exact .inl (h.written_of_static hfits himport hstatic)

/-- **What becomes of the token behind `default`**: the assignment, unless the token writes to
itself. -/
theorem written_of_target (hfits : stream.Fits)
    (h : Ran exportsName stream acts stream.size state) (hreached : stream.Reached first)
    (hword : stream.IsKeyword first "export")
    (hitems : stream.itemsFrom (first + 1) = keyword :: target :: rest)
    (hdefault : keyword.text = defaultName) (hkept : ¬ stream.IsOverwritten target.id) :
    state.stream.written target.id = Act.assigned exportsName target.text := by
  have htarget := reached_of_default hfits hreached hword hitems hdefault
  have hsize := lt_size_of_meaningful? (itemsFrom_split [keyword] hitems).2.1
  have hbody : ∀ other ∈ [keyword], other.text ≠ "export" := by
    intro other hmem
    rw [List.mem_singleton.mp hmem, hdefault]
    decide
  have hwrites : (acts first).writes exportsName first target.id =
      some (Act.assigned exportsName target.text) := by
    rw [(h.does first (lt_size_of_isKeyword hword) hreached).eq_assign hword hitems hdefault,
      Act.writes, if_pos rfl]
  -- the pass comes to the target later, and must not write there again
  have hown : (acts target.id).writes exportsName target.id target.id = none := by
    rcases (h.does target.id hsize htarget).eq_idle_or_isOverwritten hfits with hidle | hover
    · rw [hidle, Act.writes]
    · exact absurd hover hkept
  exact h.written_of_export hfits [keyword] hreached hitems hbody hwrites htarget hown

/-- The assignment is there exactly if the token does not write to itself. -/
theorem written_of_target_iff (hfits : stream.Fits)
    (h : Ran exportsName stream acts stream.size state) (hreached : stream.Reached first)
    (hword : stream.IsKeyword first "export")
    (hitems : stream.itemsFrom (first + 1) = keyword :: target :: rest)
    (hdefault : keyword.text = defaultName) :
    state.stream.written target.id = exportsName ++ ".default = " ++ stream.lexeme target.id ↔
      ¬ stream.IsOverwritten target.id := by
  have htext := lexeme_of_meaningful? (itemsFrom_split [keyword] hitems).2.1
  rw [htext, ← Act.assigned_eq]
  constructor
  · -- the assignment has a dot, and neither of the two texts that the token can have
    intro hwritten hover
    have hdot : '.' ∈ (state.stream.written target.id).toList := by
      rw [hwritten]
      simp [Act.assigned]
    have htarget := reached_of_default hfits hreached hword hitems hdefault
    rcases h.written_of_isOverwritten hfits htarget hover with heq | heq
    · rw [heq] at hdot
      exact absurd hdot (by decide)
    · rw [heq] at hdot
      exact absurd hdot (by decide)
  · exact h.written_of_target hfits hreached hword hitems hdefault

end Rewriting.Ran

/-! ## All of them -/

/-- The token behind `default`, if the statement is a default export. -/
def ExportStatement.target? : ExportStatement → Option Nat
  | .default _ target => some target.id
  | _ => none

/-- Each default export has its target, and no other export has one. -/
theorem ExportStatement.count_default (statements : List ExportStatement) :
    (statements.flatMap ExportStatement.exports).count .default =
      (statements.filterMap ExportStatement.target?).length := by
  induction statements with
  | nil => rfl
  | cons statement rest ih =>
    rw [List.flatMap_cons, List.count_append, ih]
    cases statement with
    | default keyword target =>
      show 1 + _ = (target.id :: rest.filterMap target?).length
      rw [List.length_cons, Nat.add_comm]
    | declaration name =>
      rw [List.filterMap_cons_none rfl]
      exact Nat.zero_add _
    | clause specifiers last =>
      rw [List.filterMap_cons_none rfl]
      have hnone : (specifiers.map fun specifier =>
          Export.named specifier.name specifier.newName).count .default = 0 := by
        refine List.count_eq_zero.mpr fun hmem => ?_
        obtain ⟨specifier, -, heq⟩ := List.mem_map.mp hmem
        exact absurd heq (by simp)
      show List.count _ (specifiers.map _) + _ = _
      rw [hnone, Nat.zero_add]

namespace TokenStream

theorem BeginsExport.parts_of_target {statement : ExportStatement}
    (h : stream.BeginsExport first statement) (htarget : statement.target? = some id) :
    ∃ keyword target rest, stream.itemsFrom (first + 1) = keyword :: target :: rest ∧
      keyword.text = defaultName ∧ target.id = id := by
  have hsplits := exportStatement_split h.reads
  cases statement with
  | default keyword target =>
    obtain ⟨keyword', rest, hitems, hdefault, -⟩ := hsplits
    exact ⟨keyword', target, rest, hitems, hdefault, Option.some.inj htarget⟩
  | clause specifiers last => exact absurd htarget (by simp [ExportStatement.target?])
  | declaration name => exact absurd htarget (by simp [ExportStatement.target?])

/-- The targets of the default exports that begin before `count`. -/
def targets (statements : List (Nat × ExportStatement)) : List Nat :=
  (statements.map Prod.snd).filterMap ExportStatement.target?

theorem mem_targets {count : Nat} {statements : List (Nat × ExportStatement)}
    (h : InOrder stream.BeginsExport count statements) (hmem : id ∈ targets statements) :
    ∃ first keyword target rest, stream.Reached first ∧ stream.IsKeyword first "export" ∧
      stream.itemsFrom (first + 1) = keyword :: target :: rest ∧ keyword.text = defaultName ∧
      target.id = id := by
  obtain ⟨statement, hstatement, htarget⟩ := List.mem_filterMap.mp hmem
  obtain ⟨⟨first, statement⟩, hentry, rfl⟩ := List.mem_map.mp hstatement
  have hbegins := ((h.mem_iff _ _).mp hentry).2
  obtain ⟨keyword, target, rest, hitems, hdefault, hid⟩ := hbegins.parts_of_target htarget
  exact ⟨first, keyword, target, rest, hbegins.reached, hbegins.word, hitems, hdefault, hid⟩

/-- A target is not before the next export, which has its own behind it. -/
theorem sorted_targets {count : Nat} {statements : List (Nat × ExportStatement)}
    (h : InOrder stream.BeginsExport count statements) :
    (targets statements).Pairwise (· < ·) := by
  unfold targets
  rw [List.filterMap_map]
  refine List.pairwise_filterMap.mpr (h.sorted.imp_of_mem ?_)
  intro before after hbefore hafter hlt id htarget id' htarget'
  have hbegins := ((h.mem_iff before.1 before.2).mp hbefore).2
  have hbegins' := ((h.mem_iff after.1 after.2).mp hafter).2
  obtain ⟨keyword, target, rest, hitems, hdefault, rfl⟩ := hbegins.parts_of_target htarget
  obtain ⟨keyword', target', rest', hitems', -, rfl⟩ := hbegins'.parts_of_target htarget'
  have hbehind := (itemsFrom_split [keyword'] hitems').1
  -- the next export is no token between `default` and the target
  have hle : target.id ≤ after.1 := by
    refine Nat.le_of_not_lt fun hinside => ?_
    exact (not_statement_of_default hitems hdefault hlt hinside).1 hbegins'.word
  show target.id < target'.id
  omega

end TokenStream

/-! ## Behind the body -/

/-- The names that are assigned behind the body, each with the local name it takes its value
from. -/
def Script.assignments (script : Script) : List (String × String) :=
  script.exports.filterMap fun item => item.localName.map (item.name, ·)

theorem join_lines (exports : List Export) :
    String.join (exports.map (Export.line exportsName)) =
      String.join ((exports.filterMap fun item => item.localName.map (item.name, ·)).map
        fun entry => exportsName ++ "." ++ entry.1 ++ " = " ++ entry.2 ++ ";\n") := by
  induction exports with
  | nil => rfl
  | cons item rest ih =>
    rw [List.map_cons, String.join_cons, ih]
    cases item with
    | default =>
      rw [List.filterMap_cons_none rfl]
      exact String.empty_append
    | named name newName => exact String.join_cons.symm

/-- **Every other export has its line behind the body**, in order. -/
theorem Linking.render_wrapper (config : Config) (path : String) (linking : Linking) :
    (linking.wrapper config path).render =
      (linking.wrapper config path).header ++
        String.join (linking.links.map (Link.line config.importsName)) ++
        linking.script.text ++ "\n" ++
        String.join (linking.script.assignments.map fun entry =>
          config.exportsName ++ "." ++ entry.1 ++ " = " ++ entry.2 ++ ";\n") := by
  unfold Wrapper.render Script.assignments
  rw [← join_lines]
  rfl

/-! ## The law -/

/-- **Exports are assigned.** Each default export has a token of its own, and the assignment is
written there unless the token writes to itself. A wrapper of the script assigns every other export
by one line behind the body. -/
theorem exports_are_assigned (h : transform exportsName source = .ok script) :
    ∃ (stream : TokenStream) (state : Rewriting) (targets : List Nat),
      tokenize source = .ok stream ∧
      stream.classify.rewrite exportsName = .ok state ∧ script.text = state.stream.render ∧
      targets.Pairwise (· < ·) ∧ targets.length = script.exports.count .default ∧
      (∀ id ∈ targets, stream.classify.IsTarget id ∧
        (state.stream.written id = exportsName ++ ".default = " ++ stream.lexeme id ↔
          ¬ stream.classify.IsOverwritten id)) ∧
      ∀ (config : Config) (path : String) (linking : Linking),
        config.exportsName = exportsName → linking.script = script →
        (linking.wrapper config path).render =
          (linking.wrapper config path).header ++
            String.join (linking.links.map (Link.line config.importsName)) ++
            script.text ++ "\n" ++
            String.join (script.assignments.map fun entry =>
              exportsName ++ "." ++ entry.1 ++ " = " ++ entry.2 ++ ";\n") := by
  obtain ⟨stream, acts, state, haccepted⟩ := accepted_of_transform h
  obtain ⟨statements, hstatements, hexports⟩ := haccepted.exports_eq
  refine ⟨stream, state, targets statements, haccepted.tokens, haccepted.rewrites,
    by rw [haccepted.script], sorted_targets hstatements, ?_, fun id hmem => ?_, ?_⟩
  · rw [hexports, ExportStatement.count_default]
    rfl
  · obtain ⟨first, keyword, target, rest, hreached, hword, hitems, hdefault, rfl⟩ :=
      mem_targets hstatements hmem
    refine ⟨⟨first, keyword, target, rest, hword, hitems, hdefault, rfl⟩, ?_⟩
    rw [← lexeme_classify]
    exact haccepted.ran.written_of_target_iff haccepted.fits hreached hword hitems hdefault
  · rintro config path linking rfl rfl
    exact linking.render_wrapper config path

/-- What a token writes is part of the output. -/
theorem TokenStream.mem_render {c : Char} (hid : id < stream.size)
    (hmem : c ∈ (stream.written id).toList) : c ∈ stream.render.toList := by
  rw [toList_render]
  unfold writtenFrom
  exact List.mem_flatMap.mpr ⟨id, List.mem_range'_1.mpr ⟨Nat.zero_le id, by omega⟩, hmem⟩

/-- A default export and a list: the number is the target, and it is no keyword. -/
theorem number_is_assigned :
    ∃ stream state, tokenize "export default 1;export \x7ba\x7d" = .ok stream ∧
      stream.classify.rewrite "exports" = .ok state ∧
      (∃ id, state.stream.written id = "exports.default = " ++ stream.lexeme id) ∧
      (Linking.wrapper Config.default "m.js"
        ⟨⟨"  exports.default = 1;", [], [.default, .named "a" none]⟩, [], [], none⟩).render =
        "/** @file m.js */\n  exports.default = 1;\nexports.a = a;\n" := by
  obtain ⟨stream, state, targets, htokens, hrewrites, -, -, hlength, htargets, hlines⟩ :=
    exports_are_assigned (eq_ok_of_toOption (by decide +kernel) :
      transform "exports" "export default 1;export \x7ba\x7d" =
        .ok ⟨"  exports.default = 1;", [], [.default, .named "a" none]⟩)
  refine ⟨stream, state, htokens, hrewrites, ?_, ?_⟩
  · obtain ⟨id, rfl⟩ := List.length_eq_one_iff.mp hlength
    obtain ⟨htarget, hassigned⟩ := htargets id (List.mem_singleton_self id)
    refine ⟨id, hassigned.mpr fun hover => ?_⟩
    have hread : (tokenize "export default 1;export \x7ba\x7d").toOption.map (fun stream =>
        (stream.classify.tokens.toList.map fun token => (token.kind, token.lexeme),
          (List.range stream.classify.size).filter fun id => stream.classify.lexeme id = "export",
          (stream.classify.itemsFrom 1).map Item.id)) =
        some ([(.keyword, "export"), (.whitespace, " "), (.keyword, "default"),
          (.whitespace, " "), (.number .integer, "1"), (.delimiter, ";"), (.keyword, "export"),
          (.whitespace, " "), (.bracket, "\x7b"), (.identifier, "a"), (.bracket, "\x7d")],
          [0, 6], [2, 4, 5, 6, 8, 9, 10]) := by decide +kernel
    rw [htokens] at hread
    obtain ⟨hwords, hread⟩ := Prod.mk.inj (Option.some.inj hread)
    obtain ⟨hexports, hbehind⟩ := Prod.mk.inj hread
    have hplace {id : Nat} (hword : stream.classify.IsKeyword id "export") : id = 0 ∨ id = 6 := by
      have hmem : id ∈ [0, 6] := by
        rw [← hexports]
        exact List.mem_filter.mpr ⟨List.mem_range.mpr (Ran.lt_size_of_isKeyword hword),
          decide_eq_true hword.reads⟩
      simpa using hmem
    rcases hover with ⟨word, hshort, hword⟩ | ⟨himport, -⟩
    · have hmem := hword.mem
      rw [hwords] at hmem
      simp only [List.mem_cons, List.not_mem_nil, or_false] at hshort
      rcases hshort with rfl | rfl | rfl
      · exact absurd hmem (by decide)
      · exact absurd hmem (by decide)
      · -- the second export is not the target of the first one
        obtain ⟨first, keyword, target, rest, hfirst, hitems, -, rfl⟩ := htarget
        have hlt := (itemsFrom_split [keyword] hitems).1
        have hfirst := hplace hfirst
        obtain rfl : first = 0 := by
          have := hplace hword
          omega
        rw [hitems] at hbehind
        have hid : target.id = 4 := (List.cons.inj (List.cons.inj hbehind).2).1
        have := hplace hword
        omega
    · have hmem := himport.mem
      rw [hwords] at hmem
      exact absurd hmem (by decide)
  · rw [hlines Config.default "m.js" _ rfl rfl]
    decide +kernel

/-- **A default export can be lost**: `let` is shortened where the assignment was written, so the
script offers a default that no token assigns. -/
theorem default_can_be_lost :
    ∃ stream state, transform "exports" "export default let" = .ok ⟨"  var", [], [.default]⟩ ∧
      tokenize "export default let" = .ok stream ∧
      stream.classify.rewrite "exports" = .ok state ∧
      ∀ id, id < stream.size →
        state.stream.written id ≠ "exports.default = " ++ stream.lexeme id := by
  have hscript : transform "exports" "export default let" = .ok ⟨"  var", [], [.default]⟩ :=
    eq_ok_of_toOption (by decide +kernel)
  obtain ⟨stream, acts, state, haccepted⟩ := accepted_of_transform hscript
  refine ⟨stream, state, hscript, haccepted.tokens, haccepted.rewrites, fun id hid heq => ?_⟩
  have hmem : '=' ∈ (state.stream.written id).toList := by
    rw [heq]
    simp
  have hsize : id < state.stream.size := by
    rw [haccepted.ran.same.size, size_classify]
    exact hid
  have htext : state.stream.render = "  var" := (congrArg Script.text haccepted.script).symm
  have hrender := mem_render hsize hmem
  rw [htext] at hrender
  exact absurd hrender (by decide)

end ScriptLink
