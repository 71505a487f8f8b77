import ScriptLink.Proofs.ExportReading
import ScriptLink.Proofs.ImportOrder
import ScriptLink.Proofs.Looking
import ScriptLink.Proofs.WrapperText

/-!
# What a recorded name looks like

The names that a script records come from four places of two readers, and each of them takes a token
for a name by its kind. A token of these kinds is a name or the arrow, which the classification makes
a keyword. The arrow is no word of the grammar, so wherever a statement that is removed has one, it
stands for a name and is recorded.

* **`Script.names`** — every name that a script records.
* **`Item.Records`** — the names that the readers take from some tokens, and that an arrow among the
  tokens is one of them. The parts of the grammar are put together by `Item.Records.append`.
* **`TokenStream.names_of_parts`** — one statement: from its tokens to its place in the stream.
* **`recorded_names`** — the law.
-/

namespace ScriptLink

open TokenStream Rewriting

/-! ## Names -/

/-- The names in a binding. -/
def Binding.names : Binding → List String
  | .default name => [name]
  | .named imported newName => imported :: newName.toList
  | .whole name => [name]

/-- The names in an export. -/
def Export.names : Export → List String
  | .default => []
  | .named name newName => name :: newName.toList

/-- The names that a rewritten script records: those it imports and the ones it gives to them, then
those it offers and the ones under which it does. -/
def Script.names (script : Script) : List String :=
  (script.imports.flatMap fun entry => entry.2.flatMap Binding.names) ++
    script.exports.flatMap Export.names

/-! ## Tokens and the names taken from them -/

namespace Item

variable {item : Item} {items later : List Item} {names more : List String}

/-- The names are texts of tokens that can name something, and one of them is the arrow if one of the
tokens is. -/
structure Records (items : List Item) (names : List String) : Prop where
  named : ∀ name ∈ names, ∃ item ∈ items, item.isName = true ∧ item.text = name
  arrow : ∀ item ∈ items, item.text = "=>" → "=>" ∈ names

namespace Records

theorem nil : Records [] [] where
  named _ hmem := absurd hmem List.not_mem_nil
  arrow _ hmem := absurd hmem List.not_mem_nil

theorem name (h : item.isName = true) : Records [item] [item.text] where
  named _ hmem := ⟨item, List.mem_cons_self, h, (List.mem_singleton.mp hmem).symm⟩
  arrow _ hmem htext := by
    rw [← htext, List.mem_singleton.mp hmem]
    exact List.mem_cons_self

/-- A word or a mark of the grammar names nothing. -/
theorem mark {text : String} (htext : item.text = text) (hne : text ≠ "=>") :
    Records [item] [] where
  named _ hmem := absurd hmem List.not_mem_nil
  arrow other hmem harrow := by
    obtain rfl := List.mem_singleton.mp hmem
    exact absurd (htext.symm.trans harrow) hne

theorem append (h : Records items names) (hmore : Records later more) :
    Records (items ++ later) (names ++ more) where
  named name hmem := by
    rcases List.mem_append.mp hmem with hmem | hmem
    · obtain ⟨item, hitem, hname⟩ := h.named name hmem
      exact ⟨item, List.mem_append_left _ hitem, hname⟩
    · obtain ⟨item, hitem, hname⟩ := hmore.named name hmem
      exact ⟨item, List.mem_append_right _ hitem, hname⟩
  arrow item hmem htext := by
    rcases List.mem_append.mp hmem with hmem | hmem
    · exact List.mem_append_left _ (h.arrow item hmem htext)
    · exact List.mem_append_right _ (hmore.arrow item hmem htext)

end Records

theorem IsOptional.records (h : IsOptional "," items) : Records items [] := by
  rcases h with rfl | ⟨comma, rfl, htext⟩
  · exact .nil
  · exact .mark htext (by decide)

end Item

open Item

/-! ### The parts of the grammar -/

section

variable {items entries : List Item} {bindings : List Binding} {path : String}

theorem Specifier.Renames.records {newName : Option String} (h : Renames items newName) :
    Records items newName.toList := by
  cases h with
  | unchanged => exact .nil
  | changed hmarker hrenamed => exact (Records.mark hmarker (by decide)).append (.name hrenamed)

theorem Specifier.Spells.records {specifiers : List Specifier} (h : Spells entries specifiers) :
    Records entries (specifiers.flatMap fun specifier =>
      specifier.name :: specifier.newName.toList) := by
  induction h with
  | nil => exact .nil
  | @cons name taken comma rest newName specifiers hname htaken _ hcomma _ ih =>
    have hall := (Records.name hname).append ((htaken.records.append hcomma.records).append ih)
    rwa [List.append_nil, List.singleton_append, List.singleton_append] at hall

theorem ImportStatement.DefaultPart.records (h : DefaultPart items bindings) :
    Records items (bindings.flatMap Binding.names) := by
  cases h with
  | absent => exact .nil
  | present hname hcomma => exact (Records.name (isName_of_identifier hname)).append hcomma.records

theorem ImportStatement.OtherPart.records (h : OtherPart items bindings) :
    Records items (bindings.flatMap Binding.names) := by
  cases h with
  | absent => exact .nil
  | whole hstar hmarker hname =>
    exact (Records.mark hstar (by decide)).append
      ((Records.mark hmarker (by decide)).append (.name hname))
  | named hopened hentries hclosed =>
    have hall := (Records.mark hopened (by decide)).append
      (hentries.records.append (.mark hclosed (by decide)))
    rw [List.append_nil, List.nil_append] at hall
    rw [List.flatMap_map]
    exact hall

/-- The names of an import come from the tokens before its path. -/
theorem ImportStatement.Matches.records (h : Matches items path bindings) :
    ∃ clause literal rest, items = clause ++ literal :: rest ∧ Clause clause ∧
      literal.kind = .string ∧ Records clause (bindings.flatMap Binding.names) := by
  cases h with
  | bare hpath => exact ⟨[], _, _, rfl, .nil, hpath.kind, .nil⟩
  | @bound first second rest word literal _ _ _ hdefault hothers hword hpath =>
    refine ⟨first ++ (second ++ [word]), literal, rest, by simp, ?_, hpath.kind, ?_⟩
    · refine (hothers.clause.append fun item hmem => ?_).prepend hdefault.isEntry
      obtain rfl := List.mem_singleton.mp hmem
      exact .inr (by rw [hword]; decide)
    · rw [List.flatMap_append]
      have hbehind := hothers.records.append (.mark hword (by decide))
      rw [List.append_nil] at hbehind
      exact hdefault.records.append hbehind

end

/-! ## Statements that are removed -/

namespace TokenStream

variable {stream : TokenStream} {id last j : Nat} {front rest : List Item} {item closing : Item}
  {names : List String} {word : String}

/-- The arrow is no trivia. -/
theorem exists_arrow (hfits : stream.Fits) (harrow : stream.lexeme j = "=>") :
    ∃ item, stream.meaningful? j = some item ∧ item.text = "=>" := by
  have hmeaningful : stream.IsMeaningful j := by
    cases hkind : stream.kind? j with
    | none =>
      have hnone : stream.get? j = none := Option.map_eq_none_iff.mp hkind
      unfold lexeme at harrow
      rw [hnone] at harrow
      exact absurd harrow (by decide)
    | some kind =>
      refine ⟨kind, hkind, Bool.eq_false_iff.mpr fun htrivia => ?_⟩
      have htext := hfits j kind hkind
      rw [harrow] at htext
      cases kind with
      | comment | docComment =>
        have hhead : "=>".toList.head? ≠ some '/' := by decide
        exact hhead htext
      | whitespace => exact absurd (htext '=' (by decide)) (by decide +kernel)
      | _ => exact Bool.false_ne_true htrivia
  obtain ⟨item, hmeans⟩ := isMeaningful_iff.mp hmeaningful
  exact ⟨item, hmeans, (lexeme_of_meaningful? hmeans).symm.trans harrow⟩

section

variable (hitems : stream.itemsFrom (id + 1) = front ++ closing :: rest)

include hitems

theorem place_of_mem_front (hmem : item ∈ front) :
    id < item.id ∧ item.id < closing.id ∧ stream.meaningful? item.id = some item := by
  obtain ⟨before, after, rfl⟩ := List.append_of_mem hmem
  rw [List.append_assoc, List.cons_append] at hitems
  obtain ⟨hid, hmeans, hbehind, -⟩ := itemsFrom_split before hitems
  exact ⟨hid, (itemsFrom_split after hbehind).1, hmeans⟩

theorem le_endOf : closing.id ≤ Item.endOf closing.id rest := by
  rcases Item.endOf_cases closing.id rest with hend | ⟨first, later, rfl, -, hend⟩
  · exact Nat.le_of_eq hend.symm
  · rw [hend]
    exact Nat.le_of_lt (itemsFrom_split [] (itemsFrom_split front hitems).2.2.1).1

/-- In the range of a statement, the arrow stands before the token that closes it. -/
theorem mem_front_of_arrow (hclosing : closing.text ≠ "=>")
    (hmeans : stream.meaningful? item.id = some item) (harrow : item.text = "=>")
    (hid : id < item.id) (hlast : item.id ≤ Item.endOf closing.id rest) : item ∈ front := by
  have hother {other : Item} (hother : stream.meaningful? other.id = some other)
      (hne : other.text ≠ "=>") : item.id ≠ other.id := by
    intro heq
    rw [← heq, hmeans] at hother
    exact hne (Option.some.inj hother ▸ harrow)
  obtain ⟨-, hclosingMeans, hbehind, hbefore⟩ := itemsFrom_split front hitems
  rcases Nat.lt_trichotomy item.id closing.id with hlt | heq | hgt
  · exact hbefore item.id item hid hlt hmeans
  · exact absurd heq (hother hclosingMeans hclosing)
  · -- there is nothing behind it but a semicolon
    rcases Item.endOf_cases closing.id rest with hend | ⟨first, later, rfl, hsemicolon, hend⟩
    · omega
    · obtain ⟨-, hfirst, -, hbetween⟩ := itemsFrom_split [] hbehind
      have hne := hother hfirst (by rw [hsemicolon]; decide)
      exact absurd (hbetween item.id item hgt (by omega) hmeans) List.not_mem_nil

/-- **The names of one statement** that is removed: all of them are names or the arrow, and the arrow
is one of them if and only if it is among the tokens of the statement. -/
theorem names_of_parts (hfits : stream.Fits) (hword : stream.IsKeyword id word) (hne : word ≠ "=>")
    (hclosing : closing.text ≠ "=>") (hrecords : Records front names) :
    (∀ name ∈ names, Identifier.isName name.toList = true ∨ name = "=>") ∧
      ("=>" ∈ names ↔
        ∃ j, id ≤ j ∧ j ≤ Item.endOf closing.id rest ∧ stream.lexeme j = "=>") := by
  refine ⟨fun name hmem => ?_, fun hmem => ?_, ?_⟩
  · obtain ⟨item, hitem, hisName, rfl⟩ := hrecords.named name hmem
    have hfit : item.Fits := fits_of_mem hfits (hitems ▸ List.mem_append_left _ hitem)
    exact Item.text_of_isName hfit hisName
  · -- the token that it was taken from stands in the range
    obtain ⟨item, hitem, -, htext⟩ := hrecords.named "=>" hmem
    obtain ⟨hid, hlt, hmeans⟩ := place_of_mem_front hitems hitem
    have hlast := le_endOf hitems
    exact ⟨item.id, by omega, by omega, (lexeme_of_meaningful? hmeans).trans htext⟩
  · -- an arrow in the range is a token of the grammar, and only a name can read like that
    rintro ⟨j, hid, hlast, harrow⟩
    obtain ⟨item, hmeans, htext⟩ := exists_arrow hfits harrow
    obtain rfl := id_of_meaningful? hmeans
    have hlt : id < item.id := by
      refine Nat.lt_of_le_of_ne hid fun heq => hne ?_
      rw [← hword.reads, heq, harrow]
    exact hrecords.arrow item (mem_front_of_arrow hitems hclosing hmeans htext hlt hlast) htext

end

end TokenStream

/-! ## The statements of a script -/

section

variable {exportsName source name : String} {stream : TokenStream} {script : Script}
  {state : Rewriting} {acts : Nat → Act} {id : Nat}

/-- The arrow is among the tokens of a statement that is removed from the token `id` on. -/
def TokenStream.RemovesArrow (stream : TokenStream) (id : Nat) : Prop :=
  ∃ last, stream.Removes id last ∧ ∃ j, id ≤ j ∧ j ≤ last ∧ stream.lexeme j = "=>"

/-- A removal that is known decides where the arrow would have to be. -/
theorem TokenStream.Removes.removesArrow_iff {last : Nat} (hfits : stream.Fits)
    (h : stream.Removes id last) :
    stream.RemovesArrow id ↔ ∃ j, id ≤ j ∧ j ≤ last ∧ stream.lexeme j = "=>" := by
  constructor
  · rintro ⟨other, hremoves, harrow⟩
    rwa [h.removal.unique hfits hremoves.removal]
  · exact fun harrow => ⟨last, h, harrow⟩

theorem TokenStream.BeginsImport.names {statement : ImportStatement}
    (h : tokenize source = .ok stream)
    (hbegins : stream.classify.BeginsImport id statement) :
    (∀ name ∈ statement.bindings.flatMap Binding.names,
      Identifier.isName name.toList = true ∨ name = "=>") ∧
      ("=>" ∈ statement.bindings.flatMap Binding.names ↔ stream.classify.RemovesArrow id) := by
  have hfits := fits_classify (fits_of_tokenize h).1
  obtain ⟨hword, hreached, hreads⟩ := hbegins
  obtain ⟨clause, literal, rest, hitems, hclause, hkind, hrecords⟩ :=
    (matches_of_importStatement (behindImport h hword) hreads).records
  have hremoves : stream.classify.Removes id (Item.endOf literal.id rest) :=
    ⟨hreached, .importing hword hitems hclause hkind⟩
  have hclosing : literal.text ≠ "=>" := fun harrow => by
    have hfit : literal.Fits :=
      fits_of_mem hfits (hitems ▸ List.mem_append_right _ List.mem_cons_self)
    exact Item.ne_string_of_text hfit (by rw [harrow]; decide) hkind
  rw [hremoves.removesArrow_iff hfits]
  exact names_of_parts hitems hfits hword (by decide) hclosing hrecords

/-- Of the three forms of an export, the lists are removed. -/
theorem TokenStream.BeginsExport.eq_clause {statement : ExportStatement} {last : Nat}
    (h : stream.BeginsExport id statement) (hremoval : stream.Removal id last) :
    ∃ specifiers closing, statement = .clause specifiers closing := by
  cases hremoval with
  | importing hword _ _ _ => exact absurd (h.word.unique hword) (by decide)
  | exporting _ hitems hopened _ _ =>
    have hreads := h.reads
    rw [hitems, ExportStatement.exportStatement_of_brace hopened] at hreads
    obtain ⟨_, specifiers, _, _, -, -, -, -, heq⟩ := ExportStatement.eq_clause_of_ofClause hreads
    exact ⟨specifiers, _, heq⟩

theorem TokenStream.BeginsExport.names {statement : ExportStatement}
    (h : tokenize source = .ok stream)
    (hbegins : stream.classify.BeginsExport id statement) :
    (∀ name ∈ statement.exports.flatMap Export.names,
      Identifier.isName name.toList = true ∨ name = "=>") ∧
      ("=>" ∈ statement.exports.flatMap Export.names ↔ stream.classify.RemovesArrow id) := by
  have hfits := fits_classify (fits_of_tokenize h).1
  -- the other two forms stay in the script, and what they name is an identifier by its kind
  have hstays (hother : ∀ specifiers closing, statement ≠ .clause specifiers closing) :
      ¬ stream.classify.RemovesArrow id := by
    rintro ⟨last, hremoves, -⟩
    obtain ⟨specifiers, closing, heq⟩ := hbegins.eq_clause hremoves.removal
    exact hother specifiers closing heq
  cases statement with
  | default keyword target =>
    exact ⟨fun _ hmem => absurd hmem List.not_mem_nil,
      iff_of_false List.not_mem_nil (hstays fun _ _ => by simp)⟩
  | declaration declared =>
    obtain ⟨header, rest, hitems, -, hkind⟩ := exportStatement_split hbegins.reads
    have hfit : declared.Fits :=
      fits_of_mem hfits (hitems ▸ List.mem_append_right _ List.mem_cons_self)
    have hone : ∀ name ∈ (ExportStatement.declaration declared).exports.flatMap Export.names,
        Identifier.isName name.toList = true := fun name hmem => by
      rw [List.mem_singleton.mp hmem]
      exact hfit.isName hkind
    refine ⟨fun name hmem => .inl (hone name hmem), iff_of_false (fun hmem => ?_)
      (hstays fun _ _ => by simp)⟩
    exact absurd (hone _ hmem) (by decide)
  | clause specifiers last =>
    obtain ⟨hword, hreached, hreads⟩ := hbegins
    obtain ⟨opened, entries, closed, rest, hitems, hopened, hentries, hclosed, -, rfl⟩ :=
      ExportStatement.parts_of_clause hreads
    have hremoves : stream.classify.Removes id (Item.endOf closed.id rest) :=
      ⟨hreached, .exporting hword hitems hopened hentries.isEntry hclosed⟩
    have hrecords : Records (opened :: entries)
        ((ExportStatement.clause specifiers (Item.endOf closed.id rest)).exports.flatMap
          Export.names) := by
      have hall := (Records.mark hopened (by decide)).append hentries.records
      rw [ExportStatement.exports, List.flatMap_map]
      exact hall
    rw [hremoves.removesArrow_iff hfits]
    exact names_of_parts hitems hfits hword (by decide) (by rw [hclosed]; decide) hrecords

/-! ### All statements -/

theorem ImportMap.mem_collect {entries : List (String × List Binding)} {binding : Binding} :
    (∃ entry ∈ collect entries, binding ∈ entry.2) ↔ ∃ entry ∈ entries, binding ∈ entry.2 := by
  rw [collect_eq]
  constructor
  · rintro ⟨_, hentry, hmem⟩
    obtain ⟨path, -, rfl⟩ := List.mem_map.mp hentry
    obtain ⟨entry, hentry, hmem⟩ := List.mem_flatMap.mp hmem
    exact ⟨entry, (List.mem_filter.mp hentry).1, hmem⟩
  · rintro ⟨entry, hentry, hmem⟩
    have hpath : entry.1 ∈ (entries.map Prod.fst).eraseDups :=
      List.mem_eraseDups.mpr (List.mem_map_of_mem hentry)
    refine ⟨_, List.mem_map_of_mem hpath, List.mem_flatMap.mpr ⟨entry, ?_, hmem⟩⟩
    exact List.mem_filter.mpr ⟨hentry, beq_self_eq_true entry.1⟩

/-- **The names of a script** are those of its statements. -/
theorem mem_names_iff (h : tokenize source = .ok stream)
    (hscript : transform exportsName source = .ok script) :
    name ∈ script.names ↔
      (∃ id statement, stream.classify.BeginsImport id statement ∧
        name ∈ statement.bindings.flatMap Binding.names) ∨
      ∃ id statement, stream.classify.BeginsExport id statement ∧
        name ∈ statement.exports.flatMap Export.names := by
  have hlt {id : Nat} {word : String} (hword : stream.classify.IsKeyword id word) :
      id < stream.size := size_classify stream ▸ Ran.lt_size_of_isKeyword hword
  refine List.mem_append.trans (or_congr ⟨fun hmem => ?_, ?_⟩ ⟨fun hmem => ?_, ?_⟩)
  · obtain ⟨entry, hentry, hmem⟩ := List.mem_flatMap.mp hmem
    obtain ⟨binding, hbinding, hname⟩ := List.mem_flatMap.mp hmem
    obtain ⟨_, statements, hstream, hstatements, himports⟩ := imports_of_transform hscript
    obtain rfl := Except.ok.inj (h.symm.trans hstream)
    rw [himports] at hentry
    obtain ⟨other, hother, hbinding⟩ := ImportMap.mem_collect.mp ⟨entry, hentry, hbinding⟩
    obtain ⟨⟨id, statement⟩, hstatement, rfl⟩ := List.mem_map.mp hother
    exact ⟨id, statement, ((hstatements.mem_iff id statement).mp hstatement).2,
      List.mem_flatMap.mpr ⟨binding, hbinding, hname⟩⟩
  · rintro ⟨id, statement, hbegins, hmem⟩
    obtain ⟨binding, hbinding, hname⟩ := List.mem_flatMap.mp hmem
    obtain ⟨_, statements, hstream, hstatements, himports⟩ := imports_of_transform hscript
    obtain rfl := Except.ok.inj (h.symm.trans hstream)
    have hstatement := (hstatements.mem_iff id statement).mpr ⟨hlt hbegins.word, hbegins⟩
    have hmapped : statement.entry ∈ statements.map (·.2.entry) :=
      List.mem_map.mpr ⟨_, hstatement, rfl⟩
    obtain ⟨entry, hentry, hbinding⟩ := ImportMap.mem_collect.mpr ⟨_, hmapped, hbinding⟩
    rw [himports]
    exact List.mem_flatMap.mpr ⟨entry, hentry, List.mem_flatMap.mpr ⟨binding, hbinding, hname⟩⟩
  · obtain ⟨_, _, _, haccepted⟩ := accepted_of_transform hscript
    obtain ⟨statements, hstatements, hexports⟩ := haccepted.exports_eq
    obtain rfl := Except.ok.inj (h.symm.trans haccepted.tokens)
    rw [hexports, List.flatMap_assoc] at hmem
    obtain ⟨statement, hstatement, hname⟩ := List.mem_flatMap.mp hmem
    obtain ⟨⟨id, _⟩, hentry, rfl⟩ := List.mem_map.mp hstatement
    exact ⟨id, _, ((hstatements.mem_iff _ _).mp hentry).2, hname⟩
  · rintro ⟨id, statement, hbegins, hname⟩
    obtain ⟨_, _, _, haccepted⟩ := accepted_of_transform hscript
    obtain ⟨statements, hstatements, hexports⟩ := haccepted.exports_eq
    obtain rfl := Except.ok.inj (h.symm.trans haccepted.tokens)
    have hstatement := (hstatements.mem_iff id statement).mpr ⟨hlt hbegins.word, hbegins⟩
    rw [hexports, List.flatMap_assoc]
    exact List.mem_flatMap.mpr ⟨statement, List.mem_map.mpr ⟨_, hstatement, rfl⟩, hname⟩

/-- In an accepted script, a statement that is removed has been read. -/
theorem reads_of_removes (h : tokenize source = .ok stream)
    (hscript : transform exportsName source = .ok script) {last : Nat}
    (hremoves : stream.classify.Removes id last) :
    (∃ statement, stream.classify.BeginsImport id statement) ∨
      ∃ statement, stream.classify.BeginsExport id statement := by
  obtain ⟨_, _, final, haccepted⟩ := accepted_of_transform hscript
  obtain rfl := Except.ok.inj (h.symm.trans haccepted.tokens)
  obtain ⟨hreached, hremoval⟩ := hremoves
  have hid := Nat.lt_trans hremoval.lt hremoval.lt_size
  obtain ⟨before, hlooks⟩ := (exists_looksAt_iff h haccepted.rewrites hid).mpr hreached
  have hruns (error : Malformed) : visit exportsName before id ≠ .error error := fun hvisit =>
    absurd (haccepted.rewrites.symm.trans (hlooks.rewrite_error hid hvisit)) (by simp)
  rcases hremoval.isKeyword with hword | hword
  · have hvisit := hlooks.visit_export h hword
    cases hreads : exportStatement (stream.classify.offset id)
      (stream.classify.itemsFrom (id + 1)) with
    | ok statement => exact .inr ⟨statement, hword, hreached, hreads⟩
    | error error =>
      -- the run would have ended here
      rw [hreads] at hvisit
      exact absurd hvisit (hruns error)
  · have hvisit := hlooks.visit_import h hword
    cases hreads : importStatement (stream.classify.offset id)
      (stream.classify.itemsFrom (id + 1)) with
    | error error =>
      rw [hreads] at hvisit
      exact absurd hvisit (hruns error)
    | ok found =>
      cases found with
      | some statement => exact .inl ⟨statement, hword, hreached, hreads⟩
      | none =>
        -- an expression is not removed
        exact absurd (importStatement_split hreads)
          (hremoval.not_dynamic haccepted.fits (Nat.le_refl id) (Nat.le_of_lt hremoval.lt) hword)

/-- The arrow is recorded if it is in a statement that is removed, and not otherwise. -/
theorem arrow_mem_names_iff (h : tokenize source = .ok stream)
    (hscript : transform exportsName source = .ok script) :
    "=>" ∈ script.names ↔ ∃ id, stream.classify.IsRemoved id ∧ stream.lexeme id = "=>" := by
  rw [mem_names_iff h hscript]
  constructor
  · rintro (⟨id, statement, hbegins, hmem⟩ | ⟨id, statement, hbegins, hmem⟩)
    · obtain ⟨last, hremoves, j, hid, hlast, harrow⟩ := (hbegins.names h).2.mp hmem
      exact ⟨j, ⟨id, last, hremoves, hid, hlast⟩, lexeme_classify stream ▸ harrow⟩
    · obtain ⟨last, hremoves, j, hid, hlast, harrow⟩ := (hbegins.names h).2.mp hmem
      exact ⟨j, ⟨id, last, hremoves, hid, hlast⟩, lexeme_classify stream ▸ harrow⟩
  · -- the statement around the arrow has been read, so its names have been recorded
    rintro ⟨j, ⟨id, last, hremoves, hid, hlast⟩, harrow⟩
    have hremovesArrow : stream.classify.RemovesArrow id :=
      ⟨last, hremoves, j, hid, hlast, by rw [lexeme_classify, harrow]⟩
    rcases reads_of_removes h hscript hremoves with ⟨statement, hbegins⟩ | ⟨statement, hbegins⟩
    · exact .inl ⟨id, statement, hbegins, (hbegins.names h).2.mpr hremovesArrow⟩
    · exact .inr ⟨id, statement, hbegins, (hbegins.names h).2.mpr hremovesArrow⟩

end

/-! ## The law -/

/-- **Recorded names are identifiers, or the arrow.** Every name that a script records begins like a
name, goes on like one and is read as one identifier, unless it is the arrow. So all of them are
identifiers if and only if no arrow stands in an import statement or in an export list. -/
theorem recorded_names {exportsName source : String} {script : Script}
    (h : transform exportsName source = .ok script) :
    ∃ stream, tokenize source = .ok stream ∧
      (∀ name ∈ script.names,
        Identifier.isName name.toList = true ∧ IsIdentifier name ∨ name = "=>") ∧
      ((∀ name ∈ script.names, IsIdentifier name) ↔
        ¬ ∃ id, stream.classify.IsRemoved id ∧ stream.lexeme id = "=>") := by
  obtain ⟨stream, _, _, haccepted⟩ := accepted_of_transform h
  have hstream := haccepted.tokens
  have hall : ∀ name ∈ script.names, Identifier.isName name.toList = true ∨ name = "=>" := by
    intro name hmem
    rcases (mem_names_iff hstream h).mp hmem with ⟨id, statement, hbegins, hname⟩ |
      ⟨id, statement, hbegins, hname⟩
    · exact (hbegins.names hstream).1 name hname
    · exact (hbegins.names hstream).1 name hname
  refine ⟨stream, hstream, fun name hmem => ?_, ?_⟩
  · exact (hall name hmem).imp_left fun hname => ⟨hname, isIdentifier_iff.mpr hname⟩
  · rw [← arrow_mem_names_iff hstream h]
    constructor
    · -- the arrow is no identifier
      exact fun hnames hmem => absurd (hnames "=>" hmem).isName (by decide)
    · intro hnot name hmem
      rcases hall name hmem with hname | rfl
      · exact isIdentifier_iff.mpr hname
      · exact absurd hmem hnot

/-- Every place from which a name can come, and an arrow that stands in none of them. -/
def namingScript : String :=
  "import d,\x7be as f,g\x7dfrom'p';import*as n from'q';export\x7bx as default,if\x7d;" ++
    "export let y=()=>1"

/-- All names of the script are identifiers. -/
theorem naming_script_records_identifiers :
    ∃ script stream, transform "exports" namingScript = .ok script ∧
      script.names = ["d", "e", "f", "g", "n", "x", "default", "if", "y"] ∧
      (∀ name ∈ script.names, IsIdentifier name) ∧ tokenize namingScript = .ok stream ∧
      ¬ ∃ id, stream.classify.IsRemoved id ∧ stream.lexeme id = "=>" := by
  have hscript : transform "exports" namingScript = .ok ⟨" var y /* exported */=()=>1",
      [("p", [.default "d", .named "e" (some "f"), .named "g" none]), ("q", [.whole "n"])],
      [.named "x" (some "default"), .named "if" none, .named "y" none]⟩ :=
    eq_ok_of_toOption (by decide +kernel)
  obtain ⟨stream, hstream, hnames, hall⟩ := recorded_names hscript
  have hidentifiers : ∀ name ∈ ["d", "e", "f", "g", "n", "x", "default", "if", "y"],
      IsIdentifier name := by
    intro name hmem
    rcases hnames name hmem with ⟨-, hname⟩ | rfl
    · exact hname
    · exact absurd hmem (by decide)
  exact ⟨_, stream, hscript, rfl, hidentifiers, hstream, hall.mp hidentifiers⟩

/-- An arrow between the braces of a list. -/
def arrowList : String := "export \x7b=>\x7d"

/-- The list is accepted, and the arrow is recorded, which is no identifier. -/
theorem arrow_is_recorded :
    ∃ script, transform "exports" arrowList = .ok script ∧ "=>" ∈ script.names ∧
      Identifier.isName "=>".toList = false ∧ ¬ IsIdentifier "=>" :=
  ⟨⟨"", [], [.named "=>" none]⟩, eq_ok_of_toOption (by decide +kernel), by decide, by decide,
    fun h => absurd h.isName (by decide)⟩

end ScriptLink
