import ScriptLink.Proofs.Pieces
import ScriptLink.Proofs.StringLiteral

/-!
# Reading imports exactly

What the reader of imports accepts is in the grammar, and what is in the grammar it accepts. The second
half takes more than the first: a reader decides at each token without looking back, so no token must
fit two places of the grammar. Names and marks are kept apart by what tokens of a kind look like. The
word `from` is the one that could be both a default binding and the end of the bindings, and directly
behind `import` it is never a plain identifier.

* **`ImportStatement.BehindImport`** — what is known of the tokens behind an `import`;
  **`TokenStream.behindImport`** shows it of every script.
* **`Specifier.list_of_spells`** — a list that is in the grammar is read. By induction on the list.
* **`matches_of_importStatement`**, **`importStatement_of_matches`** — the reader decides the grammar.
* **`Malformed.IsAt`**, **`isAt_of_importStatement`** — a reader that fails does so at the statement.
-/

namespace ScriptLink

/-! ## Optional tokens -/

namespace Item

variable {text : String} {item : Item} {skipped rest : List Item}

theorem skip_of_isOptional (h : IsOptional text skipped) (hstops : startsWith text rest = false) :
    skip text (skipped ++ rest) = rest := by
  rcases h with rfl | ⟨item, rfl, rfl⟩
  · cases rest with
    | nil => rfl
    | cons first later =>
      have hnot : ¬ (first.text == text) = true := Bool.eq_false_iff.mp hstops
      show skip text (first :: later) = _
      rw [skip, if_neg hnot]
  · show skip item.text (item :: rest) = rest
    rw [skip, if_pos (beq_self_eq_true item.text)]

/-- No name reads like a mark. -/
theorem text_ne_of_isName (hfits : item.Fits) (h : item.isName = true)
    (htext : Identifier.isName text.toList = false ∧ text ≠ "=>") : item.text ≠ text := by
  rintro rfl
  rcases text_of_isName hfits h with hname | harrow
  · exact absurd (htext.1.symm.trans hname) (by decide)
  · exact htext.2 harrow

end Item

/-! ## Lists of specifiers -/

namespace Specifier

variable {statement : StatementKind} {taken entries after : List Item} {newName : Option String}
  {specifiers : List Specifier} {closed : Item}

theorem newName?_of_renames (h : Renames taken newName)
    (hgreedy : taken = [] → Item.startsWith "as" after = false) :
    newName? statement (taken ++ after) = .ok (newName, after) := by
  cases h with
  | unchanged =>
    have hnot := hgreedy rfl
    cases after with
    | nil => rfl
    | cons first rest =>
      have hother : ¬ (first.text == "as") = true := Bool.eq_false_iff.mp hnot
      show newName? statement (first :: rest) = _
      unfold newName?
      dsimp only
      rw [if_neg hother]
  | @changed marker renamed hmarker hrenamed =>
    show newName? statement (marker :: renamed :: after) = _
    unfold newName?
    dsimp only
    rw [if_pos (beq_iff_eq.mpr hmarker), if_pos hrenamed]

/-- A list up to its brace does not begin with a comma. -/
theorem Spells.not_comma (h : Spells entries specifiers) (hfits : ∀ item ∈ entries, item.Fits)
    (hclosed : closed.text = "\x7d") :
    Item.startsWith "," (entries ++ closed :: after) = false := by
  cases h with
  | nil =>
    show (closed.text == ",") = false
    rw [hclosed]
    decide
  | @cons name _ _ _ _ _ hname _ _ _ _ =>
    refine beq_false_of_ne ?_
    exact Item.text_ne_of_isName (hfits name List.mem_cons_self) hname (by decide)

/-- **A list in the grammar is read**, and what stands behind its brace is left. -/
theorem list_of_spells (opened : Nat) (h : Spells entries specifiers)
    (hfits : ∀ item ∈ entries, item.Fits) (hclosed : closed.text = "\x7d") :
    list statement opened (entries ++ closed :: after) = .ok (specifiers, closed, after) := by
  induction h with
  | nil =>
    show list statement opened (closed :: after) = _
    rw [list, if_pos (beq_iff_eq.mpr hclosed)]
  | @cons name taken comma rest newName specifiers hname htaken hgreedy hcomma hrest ih =>
    have hlater : ∀ item ∈ rest, item.Fits := fun item hmem =>
      hfits item (List.mem_cons_of_mem _ (List.mem_append_right _ hmem))
    have hbrace : name.text ≠ "\x7d" :=
      Item.text_ne_of_isName (hfits name List.mem_cons_self) hname (by decide)
    -- the readers of the alias, of the comma and of the rest stop where the grammar does
    have hrenames : newName? statement (taken ++ (comma ++ (rest ++ closed :: after))) =
        .ok (newName, comma ++ (rest ++ closed :: after)) := by
      refine newName?_of_renames htaken fun hnil => ?_
      have hnot := hgreedy hnil
      cases hbehind : comma ++ rest with
      | nil =>
        obtain ⟨rfl, rfl⟩ := List.append_eq_nil_iff.mp hbehind
        show (closed.text == "as") = false
        rw [hclosed]
        decide
      | cons first more =>
        rw [hbehind] at hnot
        rw [← List.append_assoc, hbehind]
        exact hnot
    have hskip : Item.skip "," (comma ++ (rest ++ closed :: after)) = rest ++ closed :: after :=
      Item.skip_of_isOptional hcomma (hrest.not_comma hlater hclosed)
    have hitems : name :: (taken ++ comma ++ rest) ++ closed :: after =
        name :: (taken ++ (comma ++ (rest ++ closed :: after))) := by simp
    rw [hitems, list, if_neg fun heq => hbrace (eq_of_beq heq), if_pos hname]
    split
    · next error herror => exact absurd (hrenames.symm.trans herror) (by simp)
    · next newName' behind hfound =>
      obtain ⟨rfl, rfl⟩ := Prod.mk.inj (Except.ok.inj (hrenames.symm.trans hfound))
      rw [hskip, ih hlater]

end Specifier

/-! ## Imports -/

namespace ImportStatement

variable {first second items rest : List Item} {word literal : Item} {path : String}
  {bindings others : List Binding} {offset : Nat}

/-- What is known of the tokens behind an `import`. -/
structure BehindImport (items : List Item) : Prop where
  fits : ∀ item ∈ items, item.Fits
  quoted : ∀ item ∈ items, item.kind = .string → IsQuoted item.text.toList
  word : ∀ first rest, items = first :: rest → first.text = "from" → first.kind ≠ .identifier

theorem unquote_of_isPath (h : IsPath literal path) : unquote literal.text = path := by
  obtain ⟨quote, -, htext⟩ := h.text
  unfold unquote
  rw [htext, List.drop_one, List.tail_cons, List.dropLast_concat, String.ofList_toList]

theorem isPath_unquote (hkind : literal.kind = .string) (hquoted : IsQuoted literal.text.toList) :
    IsPath literal (unquote literal.text) := by
  obtain ⟨quote, body, hquote, htext⟩ := hquoted
  refine ⟨hkind, quote, hquote, ?_⟩
  unfold unquote
  rw [htext, List.drop_one, List.tail_cons, List.dropLast_concat, String.toList_ofList]

/-! ### From the grammar to the reader -/

theorem withPath_of_isPath (h : IsPath literal path) :
    withPath offset bindings (literal :: rest) =
      .ok ⟨path, bindings, Item.endOf literal.id rest⟩ := by
  unfold withPath
  dsimp only
  rw [if_pos h.kind, unquote_of_isPath h]

/-- How the tokens behind the default binding begin. -/
theorem OtherPart.head (h : OtherPart second others) (word : Item) (rest : List Item) :
    ∃ head tail, second ++ word :: rest = head :: tail ∧
      (second = [] ∧ head = word ∨ head ∈ second ∧ head.text ∈ ["*", "\x7b"]) := by
  cases h with
  | absent => exact ⟨word, rest, rfl, .inl ⟨rfl, rfl⟩⟩
  | whole hstar _ _ => exact ⟨_, _, rfl, .inr ⟨List.mem_cons_self, by rw [hstar]; simp⟩⟩
  | named hopened _ _ => exact ⟨_, _, rfl, .inr ⟨List.mem_cons_self, by rw [hopened]; simp⟩⟩

theorem otherBindings_of_otherPart (h : OtherPart second others)
    (hfits : ∀ item ∈ second, item.Fits) (hword : word.text = "from") :
    otherBindings offset (second ++ word :: rest) = .ok (others, word :: rest) := by
  cases h with
  | absent =>
    have hnot : ¬ (word.text == "*") = true ∧ ¬ (word.text == "\x7b") = true := by
      rw [hword]
      decide
    show otherBindings offset (word :: rest) = _
    unfold otherBindings
    dsimp only
    rw [if_neg hnot.1, if_neg hnot.2]
  | @whole star marker name hstar hmarker hname =>
    show otherBindings offset (star :: marker :: name :: word :: rest) = _
    unfold otherBindings
    dsimp only
    rw [if_pos (beq_iff_eq.mpr hstar)]
    unfold namespaceBinding
    dsimp only
    rw [if_pos (beq_iff_eq.mpr hmarker), if_pos hname]
  | @named opened closed entries specifiers hopened hentries hclosed =>
    have hlist : Specifier.list .importing opened.offset (entries ++ closed :: word :: rest) =
        .ok (specifiers, closed, word :: rest) :=
      Specifier.list_of_spells opened.offset hentries
        (fun item hmem => hfits item (List.mem_cons_of_mem _ (List.mem_append_left _ hmem))) hclosed
    have hitems : opened :: (entries ++ [closed]) ++ word :: rest =
        opened :: (entries ++ closed :: word :: rest) := by simp
    have hstar : ¬ (opened.text == "*") = true := by
      rw [hopened]
      decide
    rw [hitems]
    unfold otherBindings
    dsimp only
    rw [if_neg hstar, if_pos (beq_iff_eq.mpr hopened), hlist]
    rfl

/-- The default binding ends where the rest begins: with a mark, or with `from`. -/
theorem defaultBinding_of_defaultPart (h : DefaultPart first bindings) {head : Item}
    {tail : List Item} (hcomma : head.text ≠ ",")
    (habsent : first = [] → head.kind ≠ .identifier) :
    defaultBinding (first ++ head :: tail) = (bindings, head :: tail) := by
  cases h with
  | absent =>
    show defaultBinding (head :: tail) = _
    unfold defaultBinding
    dsimp only
    rw [if_neg (habsent rfl)]
  | @present name comma hname hskipped =>
    show defaultBinding (name :: (comma ++ head :: tail)) = _
    have hstops : Item.startsWith "," (head :: tail) = false := beq_false_of_ne hcomma
    unfold defaultBinding
    dsimp only
    rw [if_pos hname, Item.skip_of_isOptional hskipped hstops]

/-- A mark is no plain identifier. -/
theorem not_identifier_of_mark {item : Item} (hfits : item.Fits)
    (hmark : item.text ∈ ["*", "\x7b"]) : item.kind ≠ .identifier := by
  intro hkind
  have hname := hfits.isName hkind
  have hall : ∀ mark ∈ ["*", "\x7b"], Identifier.isName mark.toList = false := by decide
  exact absurd ((hall _ hmark).symm.trans hname) (by decide)

theorem withBindings_of_parts (hdefault : DefaultPart first bindings)
    (hothers : OtherPart second others) (hword : word.text = "from") (hpath : IsPath literal path)
    (h : BehindImport (first ++ second ++ word :: literal :: rest)) :
    withBindings offset (first ++ second ++ word :: literal :: rest) =
      .ok ⟨path, bindings ++ others, Item.endOf literal.id rest⟩ := by
  have hfits : ∀ item ∈ second, item.Fits := fun item hmem =>
    h.fits item (List.mem_append_left _ (List.mem_append_right _ hmem))
  -- what stands behind the default binding is no comma, and without one no plain identifier
  obtain ⟨head, tail, hbehind, hhead⟩ := hothers.head word (literal :: rest)
  have hcomma : head.text ≠ "," := by
    rcases hhead with ⟨-, rfl⟩ | ⟨-, hmark⟩
    · rw [hword]
      decide
    · intro heq
      rw [heq] at hmark
      exact absurd hmark (by decide)
  have habsent : first = [] → head.kind ≠ .identifier := by
    rintro rfl
    rcases hhead with ⟨rfl, rfl⟩ | ⟨hmem, hmark⟩
    · -- only `import` stands before this `from`
      exact h.word head (literal :: rest) rfl hword
    · exact not_identifier_of_mark (hfits head hmem) hmark
  have hfirst : defaultBinding (first ++ second ++ word :: literal :: rest) =
      (bindings, second ++ word :: literal :: rest) := by
    rw [List.append_assoc, hbehind]
    exact defaultBinding_of_defaultPart hdefault hcomma habsent
  unfold withBindings
  rw [hfirst]
  dsimp only
  rw [otherBindings_of_otherPart hothers hfits hword]
  dsimp only
  rw [if_pos (show Item.startsWith "from" (word :: literal :: rest) = true from
    beq_iff_eq.mpr hword), List.drop_one, List.tail_cons, withPath_of_isPath hpath]

/-- The first token of a statement that binds names is no string. -/
theorem head_ne_string (hdefault : DefaultPart first bindings) (hothers : OtherPart second others)
    (hword : word.text = "from") (h : BehindImport (first ++ second ++ word :: literal :: rest)) :
    ((first ++ second ++ word :: literal :: rest).head?.map Item.kind) ≠ some .string := by
  intro hstring
  obtain ⟨item, hitem, hkind⟩ := Option.map_eq_some_iff.mp hstring
  have hfits := h.fits item (List.mem_of_mem_head? hitem)
  have hplain {text : String} (htext : item.text = text)
      (hquote : text.toList.head? ≠ some '\x22' ∧ text.toList.head? ≠ some '\x27') : False :=
    Item.ne_string_of_text hfits (htext ▸ hquote) hkind
  cases hdefault with
  | present hname _ =>
    obtain rfl := Option.some.inj hitem
    exact absurd (hname.symm.trans hkind) (by decide)
  | absent =>
    obtain ⟨head, tail, hbehind, hhead⟩ := hothers.head word (literal :: rest)
    rw [List.nil_append, hbehind] at hitem
    obtain rfl := Option.some.inj hitem
    rcases hhead with ⟨-, rfl⟩ | ⟨-, hmark⟩
    · exact hplain hword (by decide)
    · simp only [List.mem_cons, List.not_mem_nil, or_false] at hmark
      rcases hmark with hstar | hopened
      · exact hplain hstar (by decide)
      · exact hplain hopened (by decide)

/-! ### The reader decides the grammar -/

theorem matches_of_withPath (hquoted : ∀ item ∈ items, item.kind = .string →
    IsQuoted item.text.toList) {statement : ImportStatement}
    (h : withPath offset bindings items = .ok statement) :
    ∃ literal rest, items = literal :: rest ∧ IsPath literal statement.path ∧
      statement.bindings = bindings := by
  unfold withPath at h
  split at h
  · exact absurd h (by simp)
  · next literal rest =>
    split at h
    · next hkind =>
      obtain rfl := Except.ok.inj h
      exact ⟨literal, rest, rfl,
        isPath_unquote hkind (hquoted literal List.mem_cons_self hkind), rfl⟩
    · exact absurd h (by simp)

theorem matches_of_withBindings (hquoted : ∀ item ∈ items, item.kind = .string →
    IsQuoted item.text.toList) {statement : ImportStatement}
    (h : withBindings offset items = .ok statement) :
    Matches items statement.path statement.bindings := by
  obtain ⟨first, hsplit, hdefault⟩ := defaultPart_defaultBinding items
  unfold withBindings at h
  dsimp only at h
  split at h
  · exact absurd h (by simp)
  · next others behind hothers =>
    obtain ⟨second, hsecond, hother⟩ := otherPart_of_otherBindings hothers
    split at h
    · next hfrom =>
      obtain ⟨word, later, rfl, hword⟩ := Item.startsWith_split hfrom
      have hitems : items = first ++ second ++ word :: later := by
        rw [List.append_assoc, ← hsecond]
        exact hsplit
      have hlater : ∀ item ∈ later, item ∈ items := fun item hmem =>
        hitems ▸ List.mem_append_right _ (List.mem_cons_of_mem _ hmem)
      rw [List.drop_one, List.tail_cons] at h
      obtain ⟨literal, rest, rfl, hpath, hbindings⟩ :=
        matches_of_withPath (fun item hmem => hquoted item (hlater item hmem)) h
      rw [hitems, hbindings]
      exact .bound hdefault hother hword hpath
    · exact absurd h (by simp)

end ImportStatement

open ImportStatement

section

variable {items : List Item} {offset : Nat} {path : String} {bindings : List Binding}

/-- What is read is in the grammar. -/
theorem matches_of_importStatement {statement : ImportStatement} (hbehind : BehindImport items)
    (h : importStatement offset items = .ok (some statement)) :
    Matches items statement.path statement.bindings := by
  unfold importStatement at h
  split at h
  · exact absurd h (by simp)
  · split at h
    · obtain ⟨found, hfound, heq⟩ := exists_of_map_eq_ok h
      obtain rfl := Option.some.inj heq
      obtain ⟨literal, rest, rfl, hpath, hbindings⟩ := matches_of_withPath hbehind.quoted hfound
      rw [hbindings]
      exact .bare hpath
    · obtain ⟨found, hfound, heq⟩ := exists_of_map_eq_ok h
      obtain rfl := Option.some.inj heq
      exact matches_of_withBindings hbehind.quoted hfound

/-- What is in the grammar is read. -/
theorem importStatement_of_matches (hbehind : BehindImport items)
    (hstatic : ¬ ∃ next rest, items = next :: rest ∧ (next.text = "(" ∨ next.text = "."))
    (h : Matches items path bindings) :
    ∃ last, importStatement offset items = .ok (some ⟨path, bindings, last⟩) := by
  have hnot : ¬ (Item.startsWith "(" items || Item.startsWith "." items) = true := by
    intro hdynamic
    apply hstatic
    rcases Bool.or_eq_true_iff.mp hdynamic with hopen | hdot
    · obtain ⟨next, rest, hitems, htext⟩ := Item.startsWith_split hopen
      exact ⟨next, rest, hitems, .inl htext⟩
    · obtain ⟨next, rest, hitems, htext⟩ := Item.startsWith_split hdot
      exact ⟨next, rest, hitems, .inr htext⟩
  unfold importStatement
  rw [if_neg hnot]
  cases h with
  | @bare literal rest _ hpath =>
    have hkind : (literal :: rest).head?.map Item.kind = some .string := congrArg some hpath.kind
    rw [if_pos hkind, withPath_of_isPath hpath]
    exact ⟨_, rfl⟩
  | bound hdefault hothers hword hpath =>
    rw [if_neg (head_ne_string hdefault hothers hword hbehind),
      withBindings_of_parts hdefault hothers hword hpath hbehind]
    exact ⟨_, rfl⟩

end

theorem TokenStream.fits_itemsFrom {source : String} {stream : TokenStream}
    (h : tokenize source = .ok stream) (start : Nat) :
    ∀ item ∈ stream.classify.itemsFrom start, item.Fits :=
  fun _ hmem => fits_of_mem (fits_classify (fits_of_tokenize h).1) hmem

/-- **The tokens behind an `import`** of a script. -/
theorem TokenStream.behindImport {source : String} {stream : TokenStream} {id : Nat}
    (h : tokenize source = .ok stream) (hword : stream.classify.IsKeyword id "import") :
    BehindImport (stream.classify.itemsFrom (id + 1)) where
  fits := fits_itemsFrom h (id + 1)
  quoted item hmem hkind := by
    obtain ⟨before, after, hsplit⟩ := List.append_of_mem hmem
    have hmeans := (itemsFrom_split _ hsplit).2.1
    have hstring : stream.kind? item.id = some .string := by
      have hclassified := kind?_of_meaningful? hmeans
      rw [kind?_classify, hkind] at hclassified
      split at hclassified
      · exact absurd hclassified (by simp)
      · exact hclassified
    rw [← lexeme_of_meaningful? hmeans, lexeme_classify]
    exact isQuoted_of_tokenize h hstring
  word first rest hitems htext := by
    refine not_identifier_behind h hword (fun behind hproperty => ?_) hitems
      (by rw [htext]; decide)
    -- no property is named behind the word `import`
    rcases hproperty with hdot | hdot | ⟨-, hbrace | hcomma⟩
    · exact absurd hdot (by decide)
    · exact absurd hdot (by decide)
    · exact absurd hbrace (by decide)
    · exact absurd hcomma (by decide)

/-! ## Errors -/

/-- The reasons that the reader of specifier lists gives. -/
def Reason.ofList : List Reason := [.openList, .bindingName, .aliasName]

/-- The error is reported at a statement whose keyword stands at `offset`: there, or at one of the
tokens behind the keyword, which up to it are tokens of such a statement. -/
structure Malformed.IsAt (error : Malformed) (statement : StatementKind) (offset : Nat)
    (items : List Item) : Prop where
  statement : error.statement = statement
  place : error.offset = offset ∨ ∃ before item after, items = before ++ item :: after ∧
    error.offset = item.offset ∧ ∀ other ∈ before, other.IsEntry ∨ other.text = "\x7b"

namespace Malformed.IsAt

variable {error : Malformed} {statement : StatementKind} {offset : Nat} {items before : List Item}
  {opened : Item}

/-- Further back in the statement. -/
theorem prepend (h : error.IsAt statement offset items) (hbefore : ∀ item ∈ before, item.IsEntry) :
    error.IsAt statement offset (before ++ items) := by
  refine ⟨h.statement, h.place.imp_right ?_⟩
  rintro ⟨earlier, item, after, rfl, hoffset, hearlier⟩
  refine ⟨before ++ earlier, item, after, by simp, hoffset, fun other hmem => ?_⟩
  exact (List.mem_append.mp hmem).elim (fun hmem => .inl (hbefore other hmem)) (hearlier other)

/-- Behind the brace that opens a list, or at the brace. -/
theorem behind (h : error.IsAt statement opened.offset items) (hopened : opened.text = "\x7b") :
    error.IsAt statement offset (opened :: items) := by
  refine ⟨h.statement, .inr ?_⟩
  rcases h.place with hoffset | ⟨earlier, item, after, rfl, hoffset, hearlier⟩
  · exact ⟨[], opened, items, rfl, hoffset, fun _ hmem => absurd hmem List.not_mem_nil⟩
  · refine ⟨opened :: earlier, item, after, rfl, hoffset, fun other hmem => ?_⟩
    rcases List.mem_cons.mp hmem with rfl | hmem
    · exact .inr hopened
    · exact hearlier other hmem

end Malformed.IsAt

section

variable {items : List Item} {offset : Nat} {statement : StatementKind} {error : Malformed}

theorem Specifier.newName?_error (h : newName? statement items = .error error) :
    ∃ marker rest, items = marker :: rest ∧ marker.text = "as" ∧
      error = ⟨statement, marker.offset, .aliasName⟩ := by
  unfold newName? at h
  split at h
  · exact absurd h (by simp)
  · next marker rest =>
    split at h
    · next has =>
      refine ⟨marker, rest, rfl, eq_of_beq has, ?_⟩
      split at h
      · split at h
        · exact absurd h (by simp)
        · exact (Except.error.inj h).symm
      · exact (Except.error.inj h).symm
    · exact absurd h (by simp)

/-- A list that is not read has an error at its brace or at one of its tokens. -/
theorem Specifier.isAt_of_list {opened : Nat} (h : list statement opened items = .error error) :
    error.IsAt statement opened items := by
  fun_induction list statement opened items with
  | case1 =>
    obtain rfl := Except.error.inj h
    exact ⟨rfl, .inl rfl⟩
  | case2 => exact absurd h (by simp)
  | case3 current rest _ hname found hfound =>
    obtain rfl := Except.error.inj h
    obtain ⟨marker, later, rfl, -, rfl⟩ := newName?_error hfound
    refine ⟨rfl, .inr ⟨[current], marker, later, rfl, rfl, fun other hmem => ?_⟩⟩
    obtain rfl := List.mem_singleton.mp hmem
    exact .inl (.inl hname)
  | case4 current rest _ hname newName behind hrenamed found hfound ih =>
    obtain ⟨taken, rfl, htaken, -⟩ := renames_of_newName? hrenamed
    obtain ⟨comma, hskip, hcomma⟩ := Item.skip_split "," behind
    -- the name, its alias and the comma lie between the brace and the error
    have hlater : error.IsAt statement opened
        ((current :: (taken ++ comma)) ++ Item.skip "," behind) := by
      refine (ih (hfound.trans h)).prepend fun item hmem => ?_
      rcases List.mem_cons.mp hmem with rfl | hmem
      · exact .inl hname
      · exact (List.mem_append.mp hmem).elim (htaken.isEntry item) (hcomma.isEntry item)
    rwa [List.cons_append, List.append_assoc, ← hskip] at hlater
  | case5 => exact absurd h (by simp)
  | case6 current rest _ hname =>
    obtain rfl := Except.error.inj h
    exact ⟨rfl, .inr ⟨[], current, rest, rfl, rfl, fun _ hmem => absurd hmem List.not_mem_nil⟩⟩

namespace ImportStatement

theorem withPath_error {bindings : List Binding} (h : withPath offset bindings items = .error error) :
    error = ⟨.importing, offset, .modulePath⟩ := by
  unfold withPath at h
  split at h
  · exact (Except.error.inj h).symm
  · split at h
    · exact absurd h (by simp)
    · exact (Except.error.inj h).symm

theorem namespaceBinding_error (h : namespaceBinding offset items = .error error) :
    ∃ reason, reason ∉ Reason.ofList ∧ error = ⟨.importing, offset, reason⟩ := by
  unfold namespaceBinding at h
  split at h
  · split at h
    · split at h
      · split at h
        · exact absurd h (by simp)
        · exact ⟨_, by decide, (Except.error.inj h).symm⟩
      · exact ⟨_, by decide, (Except.error.inj h).symm⟩
    · exact ⟨_, by decide, (Except.error.inj h).symm⟩
  · exact ⟨_, by decide, (Except.error.inj h).symm⟩

theorem isAt_of_otherBindings (h : otherBindings offset items = .error error) :
    error.IsAt .importing offset items := by
  unfold otherBindings at h
  split at h
  · exact absurd h (by simp)
  · next first rest =>
    split at h
    · obtain ⟨reason, -, rfl⟩ := namespaceBinding_error h
      exact ⟨rfl, .inl rfl⟩
    · split at h
      · next hopened =>
        cases hlist : Specifier.list .importing first.offset rest with
        | error found =>
          rw [hlist] at h
          obtain rfl := Except.error.inj h
          exact (Specifier.isAt_of_list hlist).behind (eq_of_beq hopened)
        | ok found =>
          rw [hlist] at h
          exact absurd h (by simp [Except.map])
      · exact absurd h (by simp)

end ImportStatement

/-- **An import that is not read** has its error at the statement. -/
theorem isAt_of_importStatement (h : importStatement offset items = .error error) :
    error.IsAt .importing offset items := by
  unfold importStatement at h
  split at h
  · exact absurd h (by simp)
  · split at h
    · obtain rfl := withPath_error (error_of_map_eq_error h)
      exact ⟨rfl, .inl rfl⟩
    · obtain ⟨first, hsplit, hdefault⟩ := defaultPart_defaultBinding items
      have hbindings := error_of_map_eq_error h
      unfold withBindings at hbindings
      dsimp only at hbindings
      split at hbindings
      · next found hothers =>
        obtain rfl := Except.error.inj hbindings
        rw [hsplit]
        exact (isAt_of_otherBindings hothers).prepend hdefault.isEntry
      · split at hbindings
        · obtain rfl := withPath_error hbindings
          exact ⟨rfl, .inl rfl⟩
        · obtain rfl := Except.error.inj hbindings
          exact ⟨rfl, .inl rfl⟩

end

end ScriptLink
