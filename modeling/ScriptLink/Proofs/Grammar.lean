import ScriptLink.Proofs.Tokenization
import ScriptLink.Statement

/-!
# The grammar of imports

The readers walk over the tokens behind a keyword and decide at each token what to do next. Here the
same is said without a walk: which tokens make up a list of specifiers, the bindings of an import and
the whole statement, and what they stand for. Commas can be left out, and so can each of the two parts
that bind names. Whether a token is a name or a string is told by its kind, all else by its text.

* **`Specifier.Spells`** — the tokens of a list of specifiers.
* **`ImportStatement.DefaultPart`**, **`ImportStatement.OtherPart`** — the two parts that bind names.
* **`ImportStatement.Matches`** — the tokens of an import statement, with its path and its bindings.
* **`Specifier.spells_of_list`**, **`ImportStatement.otherPart_of_otherBindings`** — what a reader
  accepts is in the grammar, with the answer that the reader gives.
-/

namespace ScriptLink

/-! ## Optional tokens -/

namespace Item

variable {text : String} {items rest : List Item}

/-- The tokens are one that reads `text`, or none. -/
def IsOptional (text : String) (items : List Item) : Prop :=
  items = [] ∨ ∃ item : Item, items = [item] ∧ item.text = text

/-- What is skipped, and what is left. -/
theorem skip_split (text : String) (items : List Item) :
    ∃ skipped, items = skipped ++ skip text items ∧ IsOptional text skipped := by
  cases items with
  | nil => exact ⟨[], rfl, .inl rfl⟩
  | cons first rest =>
    by_cases htext : first.text = text
    · refine ⟨[first], ?_, .inr ⟨first, rfl, htext⟩⟩
      rw [skip, if_pos (beq_iff_eq.mpr htext)]
      rfl
    · refine ⟨[], ?_, .inl rfl⟩
      rw [skip, if_neg fun h => htext (eq_of_beq h)]
      rfl

theorem startsWith_split (h : startsWith text items = true) :
    ∃ first rest, items = first :: rest ∧ first.text = text := by
  cases items with
  | nil => exact absurd h (by simp [startsWith])
  | cons first rest => exact ⟨first, rest, rfl, eq_of_beq h⟩

theorem not_startsWith_of_append (h : startsWith text (items ++ rest) = false) :
    startsWith text items = false := by
  cases items with
  | nil => rfl
  | cons first later => exact h

end Item

/-! ## Lists of specifiers -/

namespace Specifier

variable {statement : StatementKind} {items after : List Item} {newName : Option String}

/-- What changes a name: `as` and another name, or nothing. -/
inductive Renames : List Item → Option String → Prop where
  | unchanged : Renames [] none
  | changed {marker renamed : Item} (hmarker : marker.text = "as")
      (hrenamed : renamed.isName = true) : Renames [marker, renamed] (some renamed.text)

/-- The tokens of a list of specifiers. An `as` directly behind a name always belongs to it, so a name
that stays as it is has no such token behind it. -/
inductive Spells : List Item → List Specifier → Prop where
  | nil : Spells [] []
  | cons {name : Item} {taken comma rest : List Item} {newName : Option String}
      {specifiers : List Specifier} (hname : name.isName = true)
      (htaken : Renames taken newName)
      (hgreedy : taken = [] → Item.startsWith "as" (comma ++ rest) = false)
      (hcomma : Item.IsOptional "," comma) (hrest : Spells rest specifiers) :
      Spells (name :: (taken ++ comma ++ rest)) (⟨name.text, newName⟩ :: specifiers)

theorem renames_of_newName? (h : newName? statement items = .ok (newName, after)) :
    ∃ taken, items = taken ++ after ∧ Renames taken newName ∧
      (taken = [] → Item.startsWith "as" items = false) := by
  unfold newName? at h
  split at h
  · obtain ⟨rfl, rfl⟩ := Prod.mk.inj (Except.ok.inj h)
    exact ⟨[], rfl, .unchanged, fun _ => rfl⟩
  · next marker rest =>
    split at h
    · next hmarker =>
      split at h
      · next renamed later =>
        split at h
        · next hrenamed =>
          obtain ⟨rfl, rfl⟩ := Prod.mk.inj (Except.ok.inj h)
          exact ⟨[marker, renamed], rfl, .changed (eq_of_beq hmarker) hrenamed,
            fun hnil => absurd hnil (List.cons_ne_nil _ _)⟩
        · exact absurd h (by simp)
      · exact absurd h (by simp)
    · next hmarker =>
      obtain ⟨rfl, rfl⟩ := Prod.mk.inj (Except.ok.inj h)
      exact ⟨[], rfl, .unchanged, fun _ => Bool.eq_false_iff.mpr hmarker⟩

/-- **A list that is read** is in the grammar, up to the closing brace. -/
theorem spells_of_list {opened : Nat} {specifiers : List Specifier} {closed : Item}
    (h : list statement opened items = .ok (specifiers, closed, after)) :
    ∃ entries, items = entries ++ closed :: after ∧ closed.text = "\x7d" ∧
      Spells entries specifiers := by
  fun_induction list statement opened items generalizing specifiers closed after with
  | case1 => exact absurd h (by simp)
  | case2 current rest hclosed =>
    obtain ⟨rfl, heq⟩ := Prod.mk.inj (Except.ok.inj h)
    obtain ⟨rfl, rfl⟩ := Prod.mk.inj heq
    exact ⟨[], rfl, eq_of_beq hclosed, .nil⟩
  | case3 => exact absurd h (by simp)
  | case4 => exact absurd h (by simp)
  | case5 current rest _ hname newName behind hrenamed found last tail hlist ih =>
    obtain ⟨rfl, heq⟩ := Prod.mk.inj (Except.ok.inj h)
    obtain ⟨rfl, rfl⟩ := Prod.mk.inj heq
    obtain ⟨taken, rfl, htaken, hgreedy⟩ := renames_of_newName? hrenamed
    obtain ⟨comma, hskip, hcomma⟩ := Item.skip_split "," behind
    obtain ⟨entries, hsplit, hclosed, hentries⟩ := ih hlist
    -- the name, its alias, the comma and what the rest is made of
    have hbehind : behind = comma ++ entries ++ last :: tail := by
      rw [List.append_assoc, ← hsplit]
      exact hskip
    refine ⟨current :: (taken ++ comma ++ entries), ?_, hclosed,
      .cons hname htaken (fun hnil => ?_) hcomma hentries⟩
    · rw [hbehind]
      simp
    · -- what stands behind the name begins as the rest of the list does
      have hnot := hgreedy hnil
      rw [hnil, List.nil_append, hbehind] at hnot
      exact Item.not_startsWith_of_append hnot
  | case6 => exact absurd h (by simp)

end Specifier

/-! ## Imports -/

namespace ImportStatement

variable {items after : List Item} {offset : Nat} {bindings : List Binding}

/-- The default binding: a plain identifier, and perhaps a comma. -/
inductive DefaultPart : List Item → List Binding → Prop where
  | absent : DefaultPart [] []
  | present {name : Item} {comma : List Item} (hname : name.kind = .identifier)
      (hcomma : Item.IsOptional "," comma) : DefaultPart (name :: comma) [.default name.text]

/-- The other bindings: the whole export object under a name, or a list of names in braces. -/
inductive OtherPart : List Item → List Binding → Prop where
  | absent : OtherPart [] []
  | whole {star marker name : Item} (hstar : star.text = "*") (hmarker : marker.text = "as")
      (hname : name.isName = true) : OtherPart [star, marker, name] [.whole name.text]
  | named {opened closed : Item} {entries : List Item} {specifiers : List Specifier}
      (hopened : opened.text = "\x7b") (hentries : Specifier.Spells entries specifiers)
      (hclosed : closed.text = "\x7d") :
      OtherPart (opened :: (entries ++ [closed]))
        (specifiers.map fun specifier => .named specifier.name specifier.newName)

/-- The token is a string, and the path is what it has between its quotes. -/
structure IsPath (literal : Item) (path : String) : Prop where
  kind : literal.kind = .string
  text : ∃ quote, (quote = '\x22' ∨ quote = '\x27') ∧
    literal.text.toList = quote :: (path.toList ++ [quote])

/-- **The grammar of imports**: the tokens begin with those of an import statement without its
keyword, which has this path and these bindings, in the order in which they are written. -/
inductive Matches : List Item → String → List Binding → Prop where
  | bare {literal : Item} {rest : List Item} {path : String} (hpath : IsPath literal path) :
      Matches (literal :: rest) path []
  | bound {first second rest : List Item} {word literal : Item} {path : String}
      {bindings others : List Binding} (hdefault : DefaultPart first bindings)
      (hothers : OtherPart second others) (hword : word.text = "from")
      (hpath : IsPath literal path) :
      Matches (first ++ second ++ word :: literal :: rest) path (bindings ++ others)

theorem defaultPart_defaultBinding (items : List Item) :
    ∃ first, items = first ++ (defaultBinding items).2 ∧
      DefaultPart first (defaultBinding items).1 := by
  cases items with
  | nil => exact ⟨[], rfl, .absent⟩
  | cons name rest =>
    unfold defaultBinding
    dsimp only
    split
    · next hname =>
      obtain ⟨comma, hskip, hcomma⟩ := Item.skip_split "," rest
      exact ⟨name :: comma, congrArg (name :: ·) hskip, .present hname hcomma⟩
    · exact ⟨[], rfl, .absent⟩

theorem otherPart_of_otherBindings (h : otherBindings offset items = .ok (bindings, after)) :
    ∃ second, items = second ++ after ∧ OtherPart second bindings := by
  unfold otherBindings at h
  split at h
  · obtain ⟨rfl, rfl⟩ := Prod.mk.inj (Except.ok.inj h)
    exact ⟨[], rfl, .absent⟩
  · next first rest =>
    split at h
    · next hstar =>
      unfold namespaceBinding at h
      split at h
      · next marker behind =>
        split at h
        · next hmarker =>
          split at h
          · next name later =>
            split at h
            · next hname =>
              obtain ⟨rfl, rfl⟩ := Prod.mk.inj (Except.ok.inj h)
              exact ⟨[first, marker, name], rfl,
                .whole (eq_of_beq hstar) (eq_of_beq hmarker) hname⟩
            · exact absurd h (by simp)
          · exact absurd h (by simp)
        · exact absurd h (by simp)
      · exact absurd h (by simp)
    · split at h
      · next hopened =>
        obtain ⟨⟨specifiers, closed, tail⟩, hlist, heq⟩ := exists_of_map_eq_ok h
        obtain ⟨rfl, rfl⟩ := Prod.mk.inj heq
        obtain ⟨entries, rfl, hclosed, hentries⟩ := Specifier.spells_of_list hlist
        exact ⟨first :: (entries ++ [closed]), by simp,
          .named (eq_of_beq hopened) hentries hclosed⟩
      · obtain ⟨rfl, rfl⟩ := Prod.mk.inj (Except.ok.inj h)
        exact ⟨[], rfl, .absent⟩

end ImportStatement

end ScriptLink
