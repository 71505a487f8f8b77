import ScriptLink.Proofs.Grammar
import ScriptLink.Proofs.Neighbour
import ScriptLink.Proofs.Shape

/-!
# What a statement is made of

The readers walk over the tokens behind a keyword and say what they found. Here the walk is turned
around: a reader that succeeds has divided the tokens it was given, and every part has a known
shape.

* **`Item.IsEntry`** — the tokens that can stand between the braces of a list, and around it. None
  of them is a brace or a string, since the text of a token goes with its kind.
* **`Specifier.Spells.isEntry`** — the tokens of a list are entries.
* **`Clause`** — the tokens before the path of an import: entries, and braces around some of them.
* **`Specifier.list_split`**, **`importStatement_split`**, **`exportStatement_split`** — the parts.
-/

namespace ScriptLink

/-! ## Tokens of a list -/

namespace Item

variable {item : Item}

/-- The text of the token goes with its kind. -/
def Fits (item : Item) : Prop := item.kind.Fits item.text.toList

/-- A name, or what stands between names. -/
def IsEntry (item : Item) : Prop :=
  item.isName = true ∨ item.text ∈ [",", "*", "as", "from"]

theorem isName_of_identifier (h : item.kind = .identifier) : item.isName = true := by
  unfold isName
  rw [h]
  rfl

/-- The text of an identifier is a name. -/
theorem Fits.isName (hfits : item.Fits) (h : item.kind = .identifier) :
    Identifier.isName item.text.toList = true := by
  unfold Fits at hfits
  rwa [h] at hfits

/-- The text of a name begins with a letter, except for the arrow. -/
theorem text_of_isName (hfits : item.Fits) (h : item.isName = true) :
    Identifier.isName item.text.toList = true ∨ item.text = "=>" := by
  unfold isName at h
  unfold Fits at hfits
  rcases Bool.or_eq_true_iff.mp h with hkind | hkind
  · rw [eq_of_beq hkind] at hfits
    exact .inl hfits
  · rw [eq_of_beq hkind] at hfits
    exact hfits.imp_right fun htext => String.toList_inj.mp htext

/-- The marks of a statement that are no entries. -/
def marks : List String := ["\x7b", "\x7d", "(", ".", ";"]

/-- No entry reads like a mark. -/
theorem IsEntry.not_mark (h : item.IsEntry) (hfits : item.Fits) : item.text ∉ marks := by
  intro hmark
  have hall : ∀ mark ∈ marks, ¬ Identifier.isName mark.toList = true ∧ mark ≠ "=>" ∧
      mark ∉ [",", "*", "as", "from"] := by decide +kernel
  obtain ⟨hname, harrow, hentry⟩ := hall _ hmark
  rcases h with h | h
  · rcases text_of_isName hfits h with h | h
    · exact hname h
    · exact harrow h
  · exact hentry h

/-- No entry is a string. -/
theorem IsEntry.ne_string (h : item.IsEntry) (hfits : item.Fits) : item.kind ≠ .string := by
  intro hkind
  unfold Fits at hfits
  rw [hkind] at hfits
  rcases h with hname | hentry
  · unfold isName at hname
    rw [hkind] at hname
    exact absurd hname (by decide)
  · have hall : ∀ text ∈ [",", "*", "as", "from"],
        ¬ (text.toList.head? = some '\x22' ∨ text.toList.head? = some '\x27') := by decide +kernel
    exact hall _ hentry hfits

/-- A comma that can be left out is an entry. -/
theorem IsOptional.isEntry {items : List Item} (h : IsOptional "," items) :
    ∀ item ∈ items, item.IsEntry := by
  intro item hmem
  rcases h with rfl | ⟨comma, rfl, htext⟩
  · exact absurd hmem List.not_mem_nil
  · obtain rfl := List.mem_singleton.mp hmem
    exact .inr (by rw [htext]; decide)

end Item

/-! ## Lists -/

namespace Specifier

variable {statement : StatementKind} {items after : List Item}

theorem Renames.isEntry {newName : Option String} (h : Renames items newName) :
    ∀ item ∈ items, item.IsEntry := by
  intro item hmem
  cases h with
  | unchanged => exact absurd hmem List.not_mem_nil
  | changed hmarker hrenamed =>
    rcases List.mem_cons.mp hmem with rfl | hmem
    · exact .inr (by rw [hmarker]; decide)
    · obtain rfl := List.mem_singleton.mp hmem
      exact .inl hrenamed

theorem Spells.isEntry {specifiers : List Specifier} (h : Spells items specifiers) :
    ∀ item ∈ items, item.IsEntry := by
  induction h with
  | nil => exact fun _ hmem => absurd hmem List.not_mem_nil
  | cons hname htaken _ hcomma _ ih =>
    intro item hmem
    rcases List.mem_cons.mp hmem with rfl | hmem
    · exact .inl hname
    · rcases List.mem_append.mp hmem with hmem | hmem
      · exact (List.mem_append.mp hmem).elim (htaken.isEntry item) (hcomma.isEntry item)
      · exact ih item hmem

/-- A list of specifiers is entries up to the closing brace. -/
theorem list_split {opened : Nat} {specifiers : List Specifier} {closed : Item}
    (h : list statement opened items = .ok (specifiers, closed, after)) :
    ∃ entries, items = entries ++ closed :: after ∧ closed.text = "\x7d" ∧
      ∀ item ∈ entries, item.IsEntry := by
  obtain ⟨entries, hsplit, hclosed, hentries⟩ := spells_of_list h
  exact ⟨entries, hsplit, hclosed, hentries.isEntry⟩

end Specifier

/-! ## Imports -/

/-- The tokens before the path of an import: entries, some of them in braces or none. -/
inductive Clause : List Item → Prop where
  | flat {entries : List Item} (hentries : ∀ item ∈ entries, item.IsEntry) : Clause entries
  | braced {before inner after : List Item} {opened closed : Item}
      (hbefore : ∀ item ∈ before, item.IsEntry) (hopened : opened.text = "\x7b")
      (hinner : ∀ item ∈ inner, item.IsEntry) (hclosed : closed.text = "\x7d")
      (hafter : ∀ item ∈ after, item.IsEntry) :
      Clause (before ++ opened :: (inner ++ closed :: after))

namespace Clause

variable {entries items : List Item}

theorem nil : Clause [] := .flat fun _ hmem => absurd hmem List.not_mem_nil

theorem prepend (hentries : ∀ item ∈ entries, item.IsEntry) (h : Clause items) :
    Clause (entries ++ items) := by
  cases h with
  | flat hitems =>
    exact .flat fun item hmem => (List.mem_append.mp hmem).elim (hentries item) (hitems item)
  | braced hbefore hopened hinner hclosed hafter =>
    rw [← List.append_assoc]
    exact .braced (fun item hmem => (List.mem_append.mp hmem).elim (hentries item) (hbefore item))
      hopened hinner hclosed hafter

theorem append (h : Clause items) (hentries : ∀ item ∈ entries, item.IsEntry) :
    Clause (items ++ entries) := by
  cases h with
  | flat hitems =>
    exact .flat fun item hmem => (List.mem_append.mp hmem).elim (hitems item) (hentries item)
  | braced hbefore hopened hinner hclosed hafter =>
    rw [List.append_assoc, List.cons_append, List.append_assoc, List.cons_append]
    exact .braced hbefore hopened hinner hclosed
      fun item hmem => (List.mem_append.mp hmem).elim (hafter item) (hentries item)

end Clause

namespace ImportStatement

variable {items after : List Item} {offset : Nat}

theorem DefaultPart.isEntry {bindings : List Binding} (h : DefaultPart items bindings) :
    ∀ item ∈ items, item.IsEntry := by
  intro item hmem
  cases h with
  | absent => exact absurd hmem List.not_mem_nil
  | present hname hcomma =>
    rcases List.mem_cons.mp hmem with rfl | hmem
    · exact .inl (Item.isName_of_identifier hname)
    · exact hcomma.isEntry item hmem

theorem OtherPart.clause {bindings : List Binding} (h : OtherPart items bindings) :
    Clause items := by
  cases h with
  | absent => exact .nil
  | whole hstar hmarker hname =>
    refine .flat fun item hmem => ?_
    rcases List.mem_cons.mp hmem with rfl | hmem
    · exact .inr (by rw [hstar]; decide)
    · rcases List.mem_cons.mp hmem with rfl | hmem
      · exact .inr (by rw [hmarker]; decide)
      · obtain rfl := List.mem_singleton.mp hmem
        exact .inl hname
  | @named opened closed entries _ hopened hentries hclosed =>
    show Clause ([] ++ opened :: (entries ++ [closed]))
    exact .braced (fun _ hmem => absurd hmem List.not_mem_nil) hopened hentries.isEntry hclosed
      fun _ hmem => absurd hmem List.not_mem_nil

theorem withPath_split {bindings : List Binding} {statement : ImportStatement}
    (h : withPath offset bindings items = .ok statement) :
    ∃ path rest, items = path :: rest ∧ path.kind = .string ∧
      statement.last = Item.endOf path.id rest := by
  unfold withPath at h
  split at h
  · exact absurd h (by simp)
  · next path rest =>
    split at h
    · next hkind =>
      obtain rfl := Except.ok.inj h
      exact ⟨path, rest, rfl, hkind, rfl⟩
    · exact absurd h (by simp)

theorem withBindings_split {statement : ImportStatement}
    (h : withBindings offset items = .ok statement) :
    ∃ clause path rest, items = clause ++ path :: rest ∧ Clause clause ∧ path.kind = .string ∧
      statement.last = Item.endOf path.id rest := by
  unfold withBindings at h
  obtain ⟨first, hsplit, hdefault⟩ := defaultPart_defaultBinding items
  dsimp only at h
  split at h
  · exact absurd h (by simp)
  · next others behind hothers =>
    obtain ⟨second, hsecond, hother⟩ := otherPart_of_otherBindings hothers
    split at h
    · next hfrom =>
      obtain ⟨word, rest, rfl, hword⟩ := Item.startsWith_split hfrom
      obtain ⟨path, tail, htail, hkind, hlast⟩ := withPath_split h
      rw [List.drop_one, List.tail_cons] at htail
      refine ⟨first ++ (second ++ [word]), path, tail, ?_, ?_, hkind, hlast⟩
      · rw [hsplit, hsecond, htail]
        simp
      · refine (hother.clause.append fun item hmem => ?_).prepend hdefault.isEntry
        obtain rfl := List.mem_singleton.mp hmem
        exact .inr (by rw [hword]; decide)
    · exact absurd h (by simp)

end ImportStatement

/-- What an import divides the tokens behind its keyword into. No statement is read from a call or
a property of `import`. -/
def ImportStatement.Splits (items : List Item) : Option ImportStatement → Prop
  | none => ∃ first rest, items = first :: rest ∧ (first.text = "(" ∨ first.text = ".")
  | some statement => ∃ clause path rest, items = clause ++ path :: rest ∧ Clause clause ∧
      path.kind = .string ∧ statement.last = Item.endOf path.id rest

/-- **The parts of an import.** -/
theorem importStatement_split {offset : Nat} {items : List Item} {found : Option ImportStatement}
    (h : importStatement offset items = .ok found) : ImportStatement.Splits items found := by
  unfold importStatement at h
  split at h
  · next hdynamic =>
    obtain rfl := Except.ok.inj h
    rcases Bool.or_eq_true_iff.mp hdynamic with hopen | hdot
    · obtain ⟨first, rest, rfl, htext⟩ := Item.startsWith_split hopen
      exact ⟨first, rest, rfl, .inl htext⟩
    · obtain ⟨first, rest, rfl, htext⟩ := Item.startsWith_split hdot
      exact ⟨first, rest, rfl, .inr htext⟩
  · split at h
    · obtain ⟨statement, hpath, rfl⟩ := exists_of_map_eq_ok h
      obtain ⟨path, rest, rfl, hkind, hlast⟩ := ImportStatement.withPath_split hpath
      exact ⟨[], path, rest, rfl, .nil, hkind, hlast⟩
    · obtain ⟨statement, hbindings, rfl⟩ := exists_of_map_eq_ok h
      exact ImportStatement.withBindings_split hbindings

/-! ## Exports -/

/-- What stands between the keyword of an export and the declared name. -/
def IsHeader (header : List Item) : Prop :=
  ∃ before declarator after, header = before ++ declarator :: after ∧
    (before = [] ∨ ∃ word : Item, before = [word] ∧ word.text = "async") ∧
    declarator.text ∈ ExportStatement.declarators ∧
    (after = [] ∨ ∃ star : Item, after = [star] ∧ star.text = "*")

/-- What an export divides the tokens behind its keyword into. -/
def ExportStatement.Splits (items : List Item) : ExportStatement → Prop
  | .default keyword target => ∃ first rest, items = first :: target :: rest ∧
      first.text = defaultName ∧ keyword = first.id
  | .clause _ last => ∃ opened entries closed rest, items = opened :: (entries ++ closed :: rest) ∧
      opened.text = "\x7b" ∧ (∀ item ∈ entries, item.IsEntry) ∧ closed.text = "\x7d" ∧
      last = Item.endOf closed.id rest
  | .declaration name => ∃ header rest, items = header ++ name :: rest ∧ IsHeader header ∧
      name.kind = .identifier

/-- **The parts of an export.** -/
theorem exportStatement_split {offset : Nat} {items : List Item} {statement : ExportStatement}
    (h : exportStatement offset items = .ok statement) :
    ExportStatement.Splits items statement := by
  unfold exportStatement at h
  split at h
  · exact absurd h (by simp)
  · next first rest =>
    split at h
    · next hdefault =>
      split at h
      · exact absurd h (by simp)
      · next target later =>
        obtain rfl := Except.ok.inj h
        exact ⟨first, later, rfl, eq_of_beq hdefault, rfl⟩
    · split at h
      · next hopened =>
        unfold ExportStatement.ofClause at h
        split at h
        · exact absurd h (by simp)
        · next specifiers closed behind hlist =>
          split at h
          · exact absurd h (by simp)
          · obtain rfl := Except.ok.inj h
            obtain ⟨entries, rfl, hclosed, hentries⟩ := Specifier.list_split hlist
            exact ⟨first, entries, closed, behind, rfl, eq_of_beq hopened, hentries, hclosed, rfl⟩
      · unfold ExportStatement.ofDeclaration at h
        obtain ⟨before, hbefore, hasync⟩ := Item.skip_split "async" (first :: rest)
        split at h
        · exact absurd h (by simp)
        · next declarator behind hskip =>
          split at h
          · next hdeclarator =>
            obtain ⟨after, hafter, hstar⟩ := Item.skip_split "*" behind
            split at h
            · exact absurd h (by simp)
            · next name tail hname =>
              split at h
              · next hkind =>
                obtain rfl := Except.ok.inj h
                refine ⟨before ++ declarator :: after, tail, ?_, ?_, hkind⟩
                · rw [hbefore, hskip, hafter, hname]
                  simp
                · exact ⟨before, declarator, after, rfl, hasync,
                    List.contains_iff_mem.mp hdeclarator, hstar⟩
              · exact absurd h (by simp)
          · exact absurd h (by simp)

end ScriptLink
