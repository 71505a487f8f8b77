import ScriptLink.Proofs.ExportReading
import ScriptLink.Proofs.Looking

/-!
# Declarations of several names

The reader of an exported declaration stops at the first name. The rest of the declaration is left to
the pass, which finds no statement in it. So of the names that one declaration declares the first is
offered, and no other.

* **`TokenStream.Sole`** — one export statement and no other statement. Such a script is accepted, and
  it offers what the statement offers (`transform_of_sole`).
* **`Declarators`** — the tokens of a list of declarators, with the names that they declare.
* **`IsDeclaration`** — the tokens of a script that is one exported declaration, and
  **`sole_of_isDeclaration`**: the reader takes the first name out of it.
* **`one_of_many_is_exported`** — the law.
-/

namespace ScriptLink

open TokenStream Rewriting Piece

/-! ## Scripts with one statement -/

section

variable {exportsName source : String} {stream : TokenStream} {id : Nat}
  {statement : ExportStatement}

/-- An export statement begins at the token, and no other statement begins anywhere. -/
structure TokenStream.Sole (stream : TokenStream) (id : Nat) (statement : ExportStatement) :
    Prop where
  word : stream.IsKeyword id "export"
  reads : exportStatement (stream.offset id) (stream.itemsFrom (id + 1)) = .ok statement
  only : ∀ j, stream.IsKeyword j "export" ∨ stream.IsKeyword j "import" → j = id

/-- Nothing that is removed stands before the statement. -/
theorem TokenStream.Sole.begins (h : stream.Sole id statement) :
    stream.BeginsExport id statement := by
  refine ⟨h.word, ?_, h.reads⟩
  rcases reached_or_removed id with hreached | ⟨first, last, hremoves, hbefore, -⟩
  · exact hreached
  · exact absurd (h.only first hremoves.removal.isKeyword) (Nat.ne_of_lt hbefore)

/-- **A script with one statement** is accepted, and offers what the statement offers. -/
theorem transform_of_sole (exportsName : String) (h : tokenize source = .ok stream)
    (hsole : stream.classify.Sole id statement) :
    ∃ script, transform exportsName source = .ok script ∧ script.exports = statement.exports := by
  cases hrewrite : stream.classify.rewrite exportsName with
  | error error =>
    -- only the reader of the statement could fail, and it does not
    obtain ⟨j, -, -, ⟨hword, hreads⟩ | ⟨hword, -⟩⟩ := reader_of_rewrite_error h hrewrite
    · obtain rfl := hsole.only j (.inl hword)
      exact absurd (hsole.reads.symm.trans hreads) (by simp)
    · obtain rfl := hsole.only j (.inr hword)
      exact absurd (hsole.word.unique hword) (by decide)
  | ok state =>
    have hscript := transform_of_rewrite h hrewrite
    obtain ⟨_, _, _, haccepted⟩ := accepted_of_transform hscript
    obtain ⟨statements, hstatements, hexports⟩ := haccepted.exports_eq
    obtain rfl := Except.ok.inj (h.symm.trans haccepted.tokens)
    have hid := Ran.lt_size_of_isKeyword hsole.word
    rw [size_classify] at hid
    -- so there is no other statement whose exports could be in the script
    have hone := hstatements.eq_singleton hid hsole.begins fun j other hbegins => by
      obtain rfl := hsole.only j (.inl hbegins.word)
      exact ⟨rfl, hsole.begins.unique hbegins⟩
    refine ⟨_, hscript, hexports.trans ?_⟩
    rw [hone]
    exact List.append_nil _

end

/-! ## The tokens of a declaration -/

/-- A declarator: a plain name, an equals sign, and a string or a number. -/
structure IsDeclarator (name sign value : Item) : Prop where
  named : name.kind = .identifier
  plain : isReserved name.text = false
  assigned : sign.text = "="
  literal : value.kind = .string ∨ ∃ form, value.kind = .number form

/-- The tokens of one or more declarators with commas between them, and the names they declare. -/
inductive Declarators : List Item → List String → Prop where
  | last {name sign value : Item} (h : IsDeclarator name sign value) :
      Declarators [name, sign, value] [name.text]
  | more {name sign value comma : Item} {rest : List Item} {names : List String}
      (h : IsDeclarator name sign value) (hcomma : comma.text = ",")
      (hrest : Declarators rest names) :
      Declarators (name :: sign :: value :: comma :: rest) (name.text :: names)

/-- The tokens of `export`, a word that declares variables, some declarators and a semicolon. -/
inductive IsDeclaration : List Item → List String → Prop where
  | intro {word declarator stop : Item} {declared : List Item} {names : List String}
      (hkind : word.kind = .identifier) (hword : word.text = "export")
      (hdeclarator : declarator.text ∈ ["var", "let", "const"])
      (hdeclared : Declarators declared names) (hstop : stop.text = ";") :
      IsDeclaration (word :: declarator :: (declared ++ [stop])) names

section

variable {items : List Item} {names : List String} {first : String}

/-- None of the tokens of a declarator is a reserved word. -/
theorem IsDeclarator.not_reserved {name sign value : Item} (h : IsDeclarator name sign value) :
    ∀ item ∈ [name, sign, value], item.kind = .identifier → isReserved item.text = false := by
  intro item hmem hkind
  simp only [List.mem_cons, List.not_mem_nil, or_false] at hmem
  rcases hmem with rfl | rfl | rfl
  · exact h.plain
  · rw [h.assigned]
    decide
  · -- a literal is no name
    rcases h.literal with hstring | ⟨form, hnumber⟩
    · exact absurd (hkind.symm.trans hstring) (by decide)
    · exact absurd (hkind.symm.trans hnumber) (by simp)

theorem Declarators.not_reserved (h : Declarators items names) :
    ∀ item ∈ items, item.kind = .identifier → isReserved item.text = false := by
  induction h with
  | last h => exact h.not_reserved
  | @more name sign value comma rest _ h hcomma _ ih =>
    intro item hmem hkind
    -- the first declarator, the comma behind it, or the rest of the list
    have hmem : item ∈ [name, sign, value] ++ comma :: rest := hmem
    rcases List.mem_append.mp hmem with hmem | hmem
    · exact h.not_reserved item hmem hkind
    · rcases List.mem_cons.mp hmem with rfl | hmem
      · rw [hcomma]
        decide
      · exact ih item hmem hkind

/-- No statement begins behind the first token of a declaration. -/
theorem Declarators.not_statement {declarator stop : Item} (h : Declarators items names)
    (hdeclarator : declarator.text ∈ ["var", "let", "const"]) (hstop : stop.text = ";") :
    ∀ item ∈ declarator :: (items ++ [stop]), item.kind = .identifier →
      item.text ≠ "export" ∧ item.text ≠ "import" := by
  have hwords : ∀ text ∈ ["var", "let", "const"], text ≠ "export" ∧ text ≠ "import" := by decide
  intro item hmem hkind
  rcases List.mem_cons.mp hmem with rfl | hmem
  · exact hwords _ hdeclarator
  · rcases List.mem_append.mp hmem with hmem | hmem
    · have hplain := h.not_reserved item hmem hkind
      constructor <;> intro htext <;> rw [htext] at hplain <;> exact absurd hplain (by decide)
    · rw [List.mem_singleton.mp hmem, hstop]
      decide

/-- The first name comes first. -/
theorem Declarators.head (h : Declarators items (first :: names)) :
    ∃ name rest, items = name :: rest ∧ name.text = first ∧ name.kind = .identifier := by
  cases h with
  | last hname => exact ⟨_, _, rfl, rfl, hname.named⟩
  | more hname _ _ => exact ⟨_, _, rfl, rfl, hname.named⟩

end

/-! ## Reading a declaration -/

namespace TokenStream

variable {source : String} {stream : TokenStream} {id : Nat} {word : String}

/-- A reserved word at the beginning of a script is a keyword: what comes before it is trivia, and
shows of no property. -/
theorem isKeyword_of_first {item : Item} {rest : List Item} (h : tokenize source = .ok stream)
    (hitems : stream.itemsFrom 0 = item :: rest) (hkind : item.kind = .identifier)
    (hreserved : isReserved item.text = true) : stream.classify.IsKeyword item.id item.text := by
  obtain ⟨-, hmeans, -, -⟩ := itemsFrom_split [] hitems
  have hclassified : stream.classify.itemsFrom 0 =
      stream.promote item :: rest.map stream.promote := by
    rw [itemsFrom_classify, hitems, List.map_cons]
  have htrivia := (trivia_between hclassified).2
  have hnone : lastText? (stream.toPieces.take item.id) = none :=
    lastText?_take_of_trivia (Nat.zero_le _) htrivia
  refine (isKeyword_iff h (lt_size_of_meaningful? hmeans) hreserved).mpr
    ⟨?_, lexeme_of_meaningful? hmeans, ?_⟩
  · rw [kind?_of_meaningful? hmeans, hkind]
  · rw [hnone]
    simp [IsProperty]

/-- A keyword is one of the items, and was a name before the classification. -/
theorem exists_item_of_isKeyword (h : tokenize source = .ok stream) (hword : isReserved word = true)
    (hkeyword : stream.classify.IsKeyword id word) :
    ∃ item ∈ stream.itemsFrom 0, item.id = id ∧ item.kind = .identifier ∧ item.text = word := by
  have hid := Ran.lt_size_of_isKeyword hkeyword
  rw [size_classify] at hid
  obtain ⟨hkind, hreads, -⟩ := (isKeyword_iff h hid hword).mp hkeyword
  obtain ⟨item, hmeans⟩ := isMeaningful_iff.mp ⟨.identifier, hkind, rfl⟩
  refine ⟨item, List.mem_filterMap.mpr ⟨id, ?_, hmeans⟩, id_of_meaningful? hmeans, ?_, ?_⟩
  · exact List.mem_range'_1.mpr ⟨Nat.zero_le id, by omega⟩
  · exact Option.some.inj ((kind?_of_meaningful? hmeans).symm.trans hkind)
  · exact (lexeme_of_meaningful? hmeans).symm.trans hreads

/-- A name that is not reserved stays what it is. -/
theorem promote_of_plain {item : Item} (hmeans : stream.meaningful? item.id = some item)
    (hkind : item.kind = .identifier) (hplain : isReserved item.text = false) :
    stream.promote item = item := by
  have hnot : ¬ stream.isPromoted item.id = true := by
    unfold isPromoted
    rw [kind?_of_meaningful? hmeans, hkind, lexeme_of_meaningful? hmeans]
    dsimp only
    rw [hplain]
    exact Bool.false_ne_true
  unfold promote
  rw [if_neg hnot]

end TokenStream

/-- **A declaration is one statement**, and what is read of it is the first name. -/
theorem sole_of_isDeclaration {source first : String} {others : List String} {stream : TokenStream}
    (h : tokenize source = .ok stream)
    (hdeclaration : IsDeclaration (stream.itemsFrom 0) (first :: others)) :
    ∃ id name, name.text = first ∧ stream.classify.Sole id (.declaration name) := by
  generalize hitems : stream.itemsFrom 0 = items at hdeclaration
  cases hdeclaration with
  | @intro word declarator stop declared _ hkind hword hdeclarator hdeclared hstop =>
    obtain ⟨-, -, hbehind, -⟩ := itemsFrom_split [] hitems
    obtain ⟨name, rest, rfl, htext, hname⟩ := hdeclared.head
    have hplain : isReserved name.text = false :=
      hdeclared.not_reserved name List.mem_cons_self hname
    have hclassified := itemsFrom_classify stream (word.id + 1)
    -- the name is still a name behind the classification
    have hkept : stream.promote name = name := by
      have hsplit : stream.itemsFrom 0 = [word, declarator] ++ name :: (rest ++ [stop]) := hitems
      exact promote_of_plain (itemsFrom_split _ hsplit).2.1 hname hplain
    rw [hbehind, List.map_cons, List.cons_append, List.map_cons, hkept] at hclassified
    have hfirst : stream.classify.IsKeyword word.id "export" :=
      hword ▸ isKeyword_of_first h hitems hkind (by rw [hword]; decide)
    refine ⟨word.id, name, htext, hfirst, ?_, ?_⟩
    · have hheader : IsHeader [stream.promote declarator] := by
        have hall : ∀ text ∈ ["var", "let", "const"], text ∈ ExportStatement.declarators := by
          decide
        exact ⟨[], _, [], rfl, .inl rfl, hall _ hdeclarator, .inl rfl⟩
      have hfits : name.Fits := fits_itemsFrom h (word.id + 1) name (by rw [hclassified]; simp)
      rw [hclassified]
      exact (ExportStatement.exportStatement_of_isHeader hheader).trans
        (ExportStatement.ofDeclaration_of_isHeader hheader hfits hname)
    · -- every other keyword is one of the tokens behind, and none of these begins a statement
      have honly {text : String} (hstatement : text = "export" ∨ text = "import") (j : Nat)
          (hkeyword : stream.classify.IsKeyword j text) : j = word.id := by
        have hreserved : isReserved text = true := by
          rcases hstatement with rfl | rfl <;> decide
        obtain ⟨item, hmem, rfl, hidentifier, rfl⟩ := exists_item_of_isKeyword h hreserved hkeyword
        rw [hitems] at hmem
        rcases List.mem_cons.mp hmem with rfl | hlater
        · rfl
        · obtain ⟨hexport, himport⟩ :=
            hdeclared.not_statement hdeclarator hstop item hlater hidentifier
          exact (hstatement.elim hexport himport).elim
      rintro j (hkeyword | hkeyword)
      · exact honly (.inl rfl) j hkeyword
      · exact honly (.inr rfl) j hkeyword

/-! ## The law -/

/-- **Of the names that a declaration declares one is exported.** A script that is one exported
declaration is accepted, whatever comments and blanks stand between its tokens. It offers the first
name of the declaration and no other, so it offers all of them if and only if there is only one. -/
theorem one_of_many_is_exported (exportsName : String) {source first : String}
    {others : List String} {stream : TokenStream} (h : tokenize source = .ok stream)
    (hdeclaration : IsDeclaration (stream.itemsFrom 0) (first :: others)) :
    ∃ script, transform exportsName source = .ok script ∧
      script.exports = [.named first none] ∧
      (script.exports = (first :: others).map (.named · none) ↔ others = []) := by
  obtain ⟨id, name, rfl, hsole⟩ := sole_of_isDeclaration h hdeclaration
  obtain ⟨script, hscript, hexports⟩ := transform_of_sole exportsName h hsole
  refine ⟨script, hscript, hexports, ?_⟩
  rw [hexports, ExportStatement.exports, List.map_cons, List.cons_inj_right]
  exact eq_comm.trans List.map_eq_nil_iff

/-- Three names, with comments and line breaks between the tokens. -/
def spacedDeclaration : String := "export/*v*/const a=0x1,\n b='',// c\n c = 2.5 ;"

/-- The first of them is offered. -/
theorem spaced_declaration_exports_one :
    ∃ stream, tokenize spacedDeclaration = .ok stream ∧
      IsDeclaration (stream.itemsFrom 0) ["a", "b", "c"] ∧
      ∃ script, transform "exports" spacedDeclaration = .ok script ∧
        script.exports = [.named "a" none] := by
  have hread : (tokenize spacedDeclaration).toOption.map (fun stream => stream.itemsFrom 0) =
      some [⟨0, .identifier, "export", 0⟩, ⟨2, .identifier, "const", 11⟩,
        ⟨4, .identifier, "a", 17⟩, ⟨5, .operator, "=", 18⟩, ⟨6, .number .hex, "0x1", 19⟩,
        ⟨7, .delimiter, ",", 22⟩, ⟨9, .identifier, "b", 25⟩, ⟨10, .operator, "=", 26⟩,
        ⟨11, .string, "''", 27⟩, ⟨12, .delimiter, ",", 29⟩, ⟨15, .identifier, "c", 36⟩,
        ⟨17, .operator, "=", 38⟩, ⟨19, .number .float, "2.5", 40⟩,
        ⟨21, .delimiter, ";", 44⟩] := by decide +kernel
  obtain ⟨stream, hstream, hitems⟩ := Option.map_eq_some_iff.mp hread
  have hdeclaration : IsDeclaration (stream.itemsFrom 0) ["a", "b", "c"] := by
    rw [hitems]
    exact .intro rfl rfl (by decide)
      (.more ⟨rfl, by decide, rfl, .inr ⟨_, rfl⟩⟩ rfl
        (.more ⟨rfl, by decide, rfl, .inl rfl⟩ rfl (.last ⟨rfl, by decide, rfl, .inr ⟨_, rfl⟩⟩))) rfl
  obtain ⟨script, hscript, hexports, -⟩ :=
    one_of_many_is_exported "exports" (eq_ok_of_toOption hstream) hdeclaration
  exact ⟨stream, eq_ok_of_toOption hstream, hdeclaration, script, hscript, hexports⟩

/-- Two variables in one declaration. -/
def twoDeclarators : String := "export let a = 1, b = 2;"

/-- The second one is declared by the script and not offered. -/
theorem second_declarator_is_lost :
    ∃ stream, tokenize twoDeclarators = .ok stream ∧
      IsDeclaration (stream.itemsFrom 0) ["a", "b"] ∧
      transform "exports" twoDeclarators =
        .ok ⟨" var a /* exported */ = 1, b = 2;", [], [.named "a" none]⟩ ∧
      ¬ ∃ script, transform "exports" twoDeclarators = .ok script ∧
        script.exports = ["a", "b"].map (.named · none) := by
  have hread : (tokenize twoDeclarators).toOption.map (fun stream => stream.itemsFrom 0) =
      some [⟨0, .identifier, "export", 0⟩, ⟨2, .identifier, "let", 7⟩, ⟨4, .identifier, "a", 11⟩,
        ⟨6, .operator, "=", 13⟩, ⟨8, .number .integer, "1", 15⟩, ⟨9, .delimiter, ",", 16⟩,
        ⟨11, .identifier, "b", 18⟩, ⟨13, .operator, "=", 20⟩, ⟨15, .number .integer, "2", 22⟩,
        ⟨16, .delimiter, ";", 23⟩] := by decide +kernel
  have hscript : transform "exports" twoDeclarators =
      .ok ⟨" var a /* exported */ = 1, b = 2;", [], [.named "a" none]⟩ :=
    eq_ok_of_toOption (by decide +kernel)
  obtain ⟨stream, hstream, hitems⟩ := Option.map_eq_some_iff.mp hread
  refine ⟨stream, eq_ok_of_toOption hstream, ?_, hscript, ?_⟩
  · rw [hitems]
    exact .intro rfl rfl (by decide) (.more ⟨rfl, by decide, rfl, .inr ⟨_, rfl⟩⟩ rfl
      (.last ⟨rfl, by decide, rfl, .inr ⟨_, rfl⟩⟩)) rfl
  · rintro ⟨script, hother, hexports⟩
    rw [← Except.ok.inj (hscript.symm.trans hother)] at hexports
    exact absurd hexports (by decide)

end ScriptLink
