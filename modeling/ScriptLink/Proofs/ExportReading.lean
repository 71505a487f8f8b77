import ScriptLink.Proofs.ExportOrder
import ScriptLink.Proofs.ImportReading

/-!
# Reading exports exactly

The three forms of an export are told apart by the first token behind the keyword, so their grammar is
one rule for each. What the reader accepts is in the grammar, what is in the grammar it accepts, and
with each form goes what it offers.

* **`ExportStatement.Matches`** — the tokens of an export statement, with what it offers.
* **`matches_of_exportStatement`**, **`exportStatement_of_matches`** — the reader decides the grammar.
* **`isAt_of_exportStatement`** — a reader that fails does so at the statement.
-/

namespace ScriptLink

namespace ExportStatement

variable {items header entries rest : List Item} {opened closed name : Item} {offset last : Nat}
  {specifiers : List Specifier}

/-- **The grammar of exports**: the tokens begin with those of an export statement without its
keyword, and it offers this, in the order in which it is written. A specifier list is not forwarded
from another module. -/
inductive Matches : List Item → List Export → Prop where
  | default {word target : Item} {rest : List Item} (hword : word.text = defaultName) :
      Matches (word :: target :: rest) [.default]
  | clause {opened closed : Item} {entries rest : List Item} {specifiers : List Specifier}
      (hopened : opened.text = "\x7b") (hentries : Specifier.Spells entries specifiers)
      (hclosed : closed.text = "\x7d") (hhere : Item.startsWith "from" rest = false) :
      Matches (opened :: (entries ++ closed :: rest))
        (specifiers.map fun specifier => .named specifier.name specifier.newName)
  | declaration {header rest : List Item} {name : Item} (hheader : IsHeader header)
      (hname : name.kind = .identifier) : Matches (header ++ name :: rest) [.named name.text none]

/-! ### One form after the other -/

theorem exportStatement_of_default {word target : Item} (hword : word.text = defaultName) :
    exportStatement offset (word :: target :: rest) = .ok (.default word.id target) := by
  unfold exportStatement
  dsimp only
  rw [if_pos (beq_iff_eq.mpr hword)]

/-- Behind a brace a list is read. -/
theorem exportStatement_of_brace (hopened : opened.text = "\x7b") :
    exportStatement offset (opened :: items) = ofClause offset opened.offset items := by
  have hdefault : ¬ (opened.text == defaultName) = true := by
    rw [hopened]
    decide
  unfold exportStatement
  dsimp only
  rw [if_neg hdefault, if_pos (beq_iff_eq.mpr hopened)]

/-- What is read behind a brace. -/
theorem eq_clause_of_ofClause {opened : Nat} {statement : ExportStatement}
    (h : ofClause offset opened items = .ok statement) :
    ∃ entries specifiers closed rest, items = entries ++ closed :: rest ∧
      Specifier.Spells entries specifiers ∧ closed.text = "\x7d" ∧
      Item.startsWith "from" rest = false ∧
      statement = .clause specifiers (Item.endOf closed.id rest) := by
  unfold ofClause at h
  split at h
  · exact absurd h (by simp)
  · next specifiers closed behind hlist =>
    obtain ⟨entries, hsplit, hclosed, hentries⟩ := Specifier.spells_of_list hlist
    split at h
    · exact absurd h (by simp)
    · next hhere =>
      exact ⟨entries, specifiers, closed, behind, hsplit, hentries, hclosed,
        Bool.eq_false_iff.mpr hhere, (Except.ok.inj h).symm⟩

/-- **The parts of a specifier list.** -/
theorem parts_of_clause (h : exportStatement offset items = .ok (.clause specifiers last)) :
    ∃ opened entries closed rest, items = opened :: (entries ++ closed :: rest) ∧
      opened.text = "\x7b" ∧ Specifier.Spells entries specifiers ∧ closed.text = "\x7d" ∧
      Item.startsWith "from" rest = false ∧ last = Item.endOf closed.id rest := by
  obtain ⟨opened, inner, closing, behind, rfl, hopened, -⟩ := exportStatement_split h
  rw [exportStatement_of_brace hopened] at h
  obtain ⟨entries, found, closed, rest, hsplit, hentries, hclosed, hhere, heq⟩ :=
    eq_clause_of_ofClause h
  obtain ⟨rfl, rfl⟩ := clause.inj heq
  exact ⟨opened, entries, closed, rest, by rw [hsplit], hopened, hentries, hclosed, hhere, rfl⟩

theorem ofClause_of_spells {opened : Nat} (hentries : Specifier.Spells entries specifiers)
    (hfits : ∀ item ∈ entries, item.Fits) (hclosed : closed.text = "\x7d")
    (hhere : Item.startsWith "from" rest = false) :
    ofClause offset opened (entries ++ closed :: rest) =
      .ok (.clause specifiers (Item.endOf closed.id rest)) := by
  unfold ofClause
  rw [Specifier.list_of_spells opened hentries hfits hclosed]
  dsimp only
  rw [if_neg (Bool.eq_false_iff.mp hhere)]

/-- A header begins with `async` or a declarator, and neither begins another form. -/
theorem exportStatement_of_isHeader (h : IsHeader header) :
    exportStatement offset (header ++ items) = ofDeclaration offset (header ++ items) := by
  have hall : ∀ text ∈ "async" :: declarators,
      ¬ (text == defaultName) = true ∧ ¬ (text == "\x7b") = true := by decide
  obtain ⟨first, rest, rfl, hmem⟩ := h.cons
  rw [List.cons_append]
  unfold exportStatement
  dsimp only
  rw [if_neg (hall _ hmem).1, if_neg (hall _ hmem).2]

theorem ofDeclaration_of_isHeader (h : IsHeader header) (hfits : name.Fits)
    (hname : name.kind = .identifier) :
    ofDeclaration offset (header ++ name :: rest) = .ok (.declaration name) := by
  obtain ⟨before, declarator, after, rfl, hasync, hdeclarator, hstar⟩ := h
  have hnotAsync : Item.startsWith "async" (declarator :: (after ++ name :: rest)) = false := by
    have hall : ∀ text ∈ declarators, (text == "async") = false := by decide
    exact hall _ hdeclarator
  have hnotStar : Item.startsWith "*" (name :: rest) = false :=
    beq_false_of_ne (Item.text_ne_of_isName hfits (Item.isName_of_identifier hname) (by decide))
  have hitems : before ++ declarator :: after ++ name :: rest =
      before ++ declarator :: (after ++ name :: rest) := by simp
  -- so each optional word is skipped where it stands and nothing else is
  unfold ofDeclaration
  rw [hitems, Item.skip_of_isOptional hasync hnotAsync]
  dsimp only
  rw [if_pos (List.contains_iff_mem.mpr hdeclarator), Item.skip_of_isOptional hstar hnotStar]
  dsimp only
  rw [if_pos hname]

end ExportStatement

open ExportStatement

/-! ## The reader decides the grammar -/

section

variable {items : List Item} {offset : Nat} {error : Malformed}

/-- What is read is in the grammar, and offers what the grammar says. -/
theorem matches_of_exportStatement {statement : ExportStatement}
    (h : exportStatement offset items = .ok statement) : Matches items statement.exports := by
  have hparts := exportStatement_split h
  cases statement with
  | default keyword target =>
    obtain ⟨word, rest, rfl, hword, -⟩ := hparts
    exact .default hword
  | clause specifiers last =>
    obtain ⟨opened, entries, closed, rest, rfl, hopened, hentries, hclosed, hhere, -⟩ :=
      parts_of_clause h
    exact .clause hopened hentries hclosed hhere
  | declaration name =>
    obtain ⟨header, rest, rfl, hheader, hname⟩ := hparts
    exact .declaration hheader hname

/-- What is in the grammar is read. -/
theorem exportStatement_of_matches (offset : Nat) (hfits : ∀ item ∈ items, item.Fits)
    {exports : List Export} (h : Matches items exports) :
    ∃ statement, exportStatement offset items = .ok statement ∧ statement.exports = exports := by
  cases h with
  | default hword => exact ⟨_, exportStatement_of_default hword, rfl⟩
  | clause hopened hentries hclosed hhere =>
    refine ⟨_, (exportStatement_of_brace hopened).trans
      (ofClause_of_spells hentries ?_ hclosed hhere), rfl⟩
    exact fun item hmem => hfits item (List.mem_cons_of_mem _ (List.mem_append_left _ hmem))
  | declaration hheader hname =>
    refine ⟨_, (exportStatement_of_isHeader hheader).trans
      (ofDeclaration_of_isHeader hheader ?_ hname), rfl⟩
    exact hfits _ (List.mem_append_right _ List.mem_cons_self)

theorem ExportStatement.ofDeclaration_error (h : ofDeclaration offset items = .error error) :
    ∃ reason, reason ∉ Reason.ofList ∧ error = ⟨.exporting, offset, reason⟩ := by
  unfold ofDeclaration at h
  split at h
  · exact ⟨_, by decide, (Except.error.inj h).symm⟩
  · split at h
    · split at h
      · exact ⟨_, by decide, (Except.error.inj h).symm⟩
      · split at h
        · exact absurd h (by simp)
        · exact ⟨_, by decide, (Except.error.inj h).symm⟩
    · exact ⟨_, by decide, (Except.error.inj h).symm⟩

/-- **An export that is not read** has its error at the statement. -/
theorem isAt_of_exportStatement (h : exportStatement offset items = .error error) :
    error.IsAt .exporting offset items := by
  unfold exportStatement at h
  split at h
  · obtain rfl := Except.error.inj h
    exact ⟨rfl, .inl rfl⟩
  · next first rest =>
    split at h
    · split at h
      · obtain rfl := Except.error.inj h
        exact ⟨rfl, .inl rfl⟩
      · exact absurd h (by simp)
    · split at h
      · next hopened =>
        unfold ofClause at h
        split at h
        · next found hlist =>
          obtain rfl := Except.error.inj h
          exact (Specifier.isAt_of_list hlist).behind (eq_of_beq hopened)
        · split at h
          · obtain rfl := Except.error.inj h
            exact ⟨rfl, .inl rfl⟩
          · exact absurd h (by simp)
      · obtain ⟨reason, -, rfl⟩ := ofDeclaration_error h
        exact ⟨rfl, .inl rfl⟩

end

end ScriptLink
