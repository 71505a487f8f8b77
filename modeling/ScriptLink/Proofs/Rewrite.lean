import ScriptLink.Proofs.Act

/-!
# The run of the pass

A pass over the tokens can jump, and a later visit can write where an earlier one has written. Still
the outcome can be told without running it: a statement that is removed is passed over as a whole,
so a token either is looked at or lies inside one statement, and a visit writes to its own token and
to tokens behind it, so the last visit that writes a token decides.

* **`TokenStream.Removal.parts`** — what stands in a statement that is removed.
* **`TokenStream.Reached`** — where the pass looks, and `Removes.lt_of_reached`: never inside a
  statement that it removes. `reached_or_removed`: but everywhere else.
* **`Rewriting.Ran`** — what is known when some tokens have been visited. A visit keeps it
  (`Ran.skip`, `Ran.perform`), and so the run does (`ran_of_foldlM`).
-/

namespace ScriptLink

/-- A token divides a list in one place only if it is the first of its kind. -/
theorem split_unique {α : Type} {p : α → Prop} {before before' after after' : List α} {x x' : α}
    (h : before ++ x :: after = before' ++ x' :: after') (hbefore : ∀ y ∈ before, ¬ p y) (hx : p x)
    (hbefore' : ∀ y ∈ before', ¬ p y) (hx' : p x') :
    before = before' ∧ x = x' ∧ after = after' := by
  induction before generalizing before' with
  | nil =>
    cases before' with
    | nil =>
      obtain ⟨rfl, rfl⟩ := List.cons.inj h
      exact ⟨rfl, rfl, rfl⟩
    | cons y rest' =>
      obtain ⟨rfl, -⟩ := List.cons.inj h
      exact absurd hx (hbefore' _ List.mem_cons_self)
  | cons y rest ih =>
    cases before' with
    | nil =>
      obtain ⟨rfl, -⟩ := List.cons.inj h
      exact absurd hx' (hbefore _ List.mem_cons_self)
    | cons y' rest' =>
      obtain ⟨rfl, hrest⟩ := List.cons.inj h
      obtain ⟨rfl, hsame⟩ := ih hrest (fun z hz => hbefore z (List.mem_cons_of_mem _ hz))
        fun z hz => hbefore' z (List.mem_cons_of_mem _ hz)
      exact ⟨rfl, hsame⟩

/-- Every token of a clause is an entry or one of its braces. -/
theorem Clause.mem {clause : List Item} (h : Clause clause) {item : Item} (hmem : item ∈ clause) :
    item.IsEntry ∨ item.text = "\x7b" ∨ item.text = "\x7d" := by
  cases h with
  | flat hentries => exact .inl (hentries item hmem)
  | braced hbefore hopened hinner hclosed hafter =>
    rcases List.mem_append.mp hmem with hmem | hmem
    · exact .inl (hbefore item hmem)
    · rcases List.mem_cons.mp hmem with rfl | hmem
      · exact .inr (.inl hopened)
      · rcases List.mem_append.mp hmem with hmem | hmem
        · exact .inl (hinner item hmem)
        · rcases List.mem_cons.mp hmem with rfl | hmem
          · exact .inr (.inr hclosed)
          · exact .inl (hafter item hmem)

/-- No token with a text like this is a string. -/
theorem Item.ne_string_of_text {item : Item} (hfits : item.Fits)
    (htext : item.text.toList.head? ≠ some '\x22' ∧ item.text.toList.head? ≠ some '\x27') :
    item.kind ≠ .string := by
  intro hkind
  unfold Fits at hfits
  rw [hkind] at hfits
  exact hfits.elim htext.1 htext.2

/-- No token of a clause is a string. -/
theorem Clause.ne_string {clause : List Item} (h : Clause clause)
    (hfits : ∀ item ∈ clause, item.Fits) : ∀ item ∈ clause, item.kind ≠ .string := by
  intro item hmem
  rcases h.mem hmem with hentry | hopened | hclosed
  · exact hentry.ne_string (hfits item hmem)
  · exact Item.ne_string_of_text (hfits item hmem) (by rw [hopened]; decide)
  · exact Item.ne_string_of_text (hfits item hmem) (by rw [hclosed]; decide)

theorem Item.endOf_cases (last : Nat) (rest : List Item) :
    Item.endOf last rest = last ∨ ∃ first later, rest = first :: later ∧ first.text = ";" ∧
      Item.endOf last rest = first.id := by
  cases rest with
  | nil => exact .inl rfl
  | cons first later =>
    unfold endOf
    dsimp only
    split
    · next htext => exact .inr ⟨first, later, rfl, eq_of_beq htext, rfl⟩
    · exact .inl rfl

theorem IsHeader.cons {header : List Item} (h : IsHeader header) :
    ∃ first rest, header = first :: rest ∧
      first.text ∈ "async" :: ExportStatement.declarators := by
  obtain ⟨before, declarator, after, rfl, hbefore, hdeclarator, -⟩ := h
  rcases hbefore with rfl | ⟨word, rfl, hword⟩
  · exact ⟨declarator, after, rfl, List.mem_cons_of_mem _ hdeclarator⟩
  · exact ⟨word, declarator :: after, rfl, hword ▸ List.mem_cons_self⟩

namespace TokenStream

variable {stream : TokenStream} {id first last start j : Nat} {act : Act} {item : Item}
  {word word' : String}

/-- The tokens of a stream fit, so its items do. -/
theorem fits_of_mem (hfits : stream.Fits) (hmem : item ∈ stream.itemsFrom start) : item.Fits := by
  obtain ⟨before, after, hsplit⟩ := List.append_of_mem hmem
  obtain ⟨-, hitem, -, -⟩ := itemsFrom_split _ hsplit
  have h := hfits item.id item.kind (kind?_of_meaningful? hitem)
  rw [lexeme_of_meaningful? hitem] at h
  exact h

theorem IsKeyword.unique (h : stream.IsKeyword id word) (h' : stream.IsKeyword id word') :
    word = word' :=
  h.reads.symm.trans h'.reads

/-! ## Statements that are removed -/

namespace Removal

/-- A statement that is removed divides the tokens behind its keyword at its last token. -/
theorem parts (h : stream.Removal first last) :
    ∃ body closing after, stream.itemsFrom (first + 1) = body ++ closing :: after ∧
      last = closing.id ∧
      (closing.kind = .string ∨ closing.text = "\x7d" ∨ closing.text = ";") ∧
      ∀ item ∈ body, item.IsEntry ∨ item.kind = .string ∨ item.text = "\x7b" ∨
        item.text = "\x7d" := by
  cases h with
  | @importing clause rest path hword hitems hclause hpath =>
    have hbody : ∀ item ∈ clause, item.IsEntry ∨ item.kind = .string ∨ item.text = "\x7b" ∨
        item.text = "\x7d" := fun item hmem => (hclause.mem hmem).imp_right .inr
    rcases Item.endOf_cases path.id rest with hlast | ⟨semicolon, later, rfl, htext, hlast⟩
    · exact ⟨clause, path, rest, hitems, hlast, .inl hpath, hbody⟩
    · refine ⟨clause ++ [path], semicolon, later, by rw [hitems]; simp, hlast, .inr (.inr htext),
        fun item hmem => ?_⟩
      rcases List.mem_append.mp hmem with hmem | hmem
      · exact hbody item hmem
      · obtain rfl := List.mem_singleton.mp hmem
        exact .inr (.inl hpath)
  | @exporting entries rest opened closed hword hitems hopened hentries hclosed =>
    have hbody : ∀ item ∈ opened :: entries, item.IsEntry ∨ item.kind = .string ∨
        item.text = "\x7b" ∨ item.text = "\x7d" := by
      intro item hmem
      rcases List.mem_cons.mp hmem with rfl | hmem
      · exact .inr (.inr (.inl hopened))
      · exact .inl (hentries item hmem)
    rcases Item.endOf_cases closed.id rest with hlast | ⟨semicolon, later, rfl, htext, hlast⟩
    · exact ⟨opened :: entries, closed, rest, by rw [hitems]; simp, hlast, .inr (.inl hclosed),
        hbody⟩
    · refine ⟨opened :: entries ++ [closed], semicolon, later, by rw [hitems]; simp, hlast,
        .inr (.inr htext), fun item hmem => ?_⟩
      rcases List.mem_append.mp hmem with hmem | hmem
      · exact hbody item hmem
      · obtain rfl := List.mem_singleton.mp hmem
        exact .inr (.inr (.inr hclosed))

theorem lt (h : stream.Removal first last) : first < last := by
  obtain ⟨body, closing, after, hitems, rfl, -⟩ := h.parts
  exact (itemsFrom_split _ hitems).1

theorem lt_size (h : stream.Removal first last) : last < stream.size := by
  obtain ⟨body, closing, after, hitems, rfl, -⟩ := h.parts
  exact lt_size_of_meaningful? (itemsFrom_split _ hitems).2.1

/-- A keyword begins one statement at most. -/
theorem unique (hfits : stream.Fits) (h : stream.Removal first last) {last' : Nat}
    (h' : stream.Removal first last') : last = last' := by
  cases h with
  | @importing clause rest path hword hitems hclause hpath =>
    cases h' with
    | @importing clause' rest' path' _ hitems' hclause' hpath' =>
      have hfit : ∀ item ∈ clause, item.Fits := fun item hmem =>
        fits_of_mem hfits (hitems ▸ List.mem_append_left _ hmem)
      have hfit' : ∀ item ∈ clause', item.Fits := fun item hmem =>
        fits_of_mem hfits (hitems' ▸ List.mem_append_left _ hmem)
      obtain ⟨-, rfl, rfl⟩ := split_unique (p := fun item => item.kind = .string)
        (hitems.symm.trans hitems') (hclause.ne_string hfit) hpath (hclause'.ne_string hfit') hpath'
      rfl
    | exporting hword' _ _ _ _ => exact absurd (hword.unique hword') (by decide)
  | @exporting entries rest opened closed hword hitems hopened hentries hclosed =>
    cases h' with
    | importing hword' _ _ _ => exact absurd (hword.unique hword') (by decide)
    | @exporting entries' rest' opened' closed' _ hitems' _ hentries' hclosed' =>
      obtain ⟨-, heq⟩ := List.cons.inj (hitems.symm.trans hitems')
      have hopen {found : List Item} {opening closing : Item} {after : List Item}
          (hsplit : stream.itemsFrom (first + 1) = opening :: (found ++ closing :: after))
          (hfound : ∀ item ∈ found, item.IsEntry) : ∀ item ∈ found, item.text ≠ "\x7d" := by
        intro item hmem htext
        have hfit : item.Fits := fits_of_mem hfits
          (hsplit ▸ List.mem_cons_of_mem _ (List.mem_append_left _ hmem))
        exact (hfound item hmem).not_mark hfit (by rw [htext]; decide)
      obtain ⟨-, rfl, rfl⟩ := split_unique (p := fun item => item.text = "\x7d") heq
        (hopen hitems hentries) hclosed (hopen hitems' hentries') hclosed'
      rfl

/-- No expression that begins with `import` stands in a statement that is removed. -/
theorem not_dynamic (hfits : stream.Fits) (h : stream.Removal first last) (hle : first ≤ j)
    (hlast : j ≤ last) (hword : stream.IsKeyword j "import") : ¬ stream.IsDynamic j := by
  rintro ⟨next, rest, hnext, htext⟩
  obtain ⟨body, closing, after, hitems, rfl, hclosing, hbody⟩ := h.parts
  obtain ⟨-, hmeans, -, hbefore⟩ := itemsFrom_split _ hitems
  have hmark : next.text ∈ Item.marks := by
    rcases htext with htext | htext <;> rw [htext] <;> decide
  have hfit : next.Fits := fits_of_mem hfits (hnext ▸ List.mem_cons_self)
  have hstring : next.kind ≠ .string := by
    rcases htext with htext | htext <;>
      exact Item.ne_string_of_text hfit (by rw [htext]; decide)
  have hne : j ≠ closing.id := by
    rintro rfl
    have hreads : closing.text = "import" := (lexeme_of_meaningful? hmeans).symm.trans hword.reads
    rcases hclosing with hkind | htext | htext
    · have hkeyword := (kind?_of_meaningful? hmeans).symm.trans hword.kind
      rw [hkind] at hkeyword
      exact absurd hkeyword (by decide)
    · exact absurd (hreads.symm.trans htext) (by decide)
    · exact absurd (hreads.symm.trans htext) (by decide)
  -- the token behind the word is no further than the last one of the statement
  have hisNext := isNext_of_itemsFrom hnext
  have hle' : next.id ≤ closing.id := by
    refine Nat.le_of_not_lt fun hlt => ?_
    exact hisNext.nearest closing.id (by omega) hlt (isMeaningful_iff.mpr ⟨closing, hmeans⟩)
  have hnextMeans := (itemsFrom_split [] hnext).2.1
  have hlt := hisNext.lt
  rcases Nat.lt_or_eq_of_le hle' with hlt' | heq
  · rcases hbody next (hbefore next.id next (by omega) hlt' hnextMeans) with h | h | h | h
    · exact h.not_mark hfit hmark
    · exact hstring h
    · rcases htext with htext | htext <;> exact absurd (htext.symm.trans h) (by decide)
    · rcases htext with htext | htext <;> exact absurd (htext.symm.trans h) (by decide)
  · rw [heq] at hnextMeans
    obtain rfl := Option.some.inj (hnextMeans.symm.trans hmeans)
    rcases hclosing with h | h | h
    · exact hstring h
    · rcases htext with htext | htext <;> exact absurd (htext.symm.trans h) (by decide)
    · rcases htext with htext | htext <;> exact absurd (htext.symm.trans h) (by decide)

end Removal

/-! ## Acts -/

/-- The tokens that an act writes to are the keyword and tokens behind it. -/
theorem Does.le_of_writes {exportsName text : String} (h : stream.Does id act)
    (hwrites : act.writes exportsName id j = some text) : id ≤ j := by
  cases h with
  | idle => exact absurd hwrites (by simp [Act.writes])
  | shorten =>
    simp only [Act.writes] at hwrites
    split at hwrites
    · omega
    · exact absurd hwrites (by simp)
  | remove =>
    simp only [Act.writes] at hwrites
    split at hwrites
    · next hrange => exact hrange.1
    · exact absurd hwrites (by simp)
  | @assign keyword target rest _ hitems _ =>
    have hkeyword := (itemsFrom_split [] hitems).1
    have htarget := (itemsFrom_split [keyword] hitems).1
    simp only [Act.writes] at hwrites
    split at hwrites
    · omega
    · split at hwrites
      · omega
      · split at hwrites
        · omega
        · exact absurd hwrites (by simp)
  | @declare header rest name _ hitems _ _ =>
    have hname := (itemsFrom_split _ hitems).1
    simp only [Act.writes] at hwrites
    split at hwrites
    · omega
    · split at hwrites
      · omega
      · exact absurd hwrites (by simp)

/-- Only a removal makes the pass jump. -/
theorem Does.resume_cases (h : stream.Does id act) :
    (∃ last, stream.Removal id last ∧ act = .remove last) ∨
      ∀ before, act.resume before = before := by
  cases h with
  | remove hremoval => exact .inl ⟨_, hremoval, rfl⟩
  | idle => exact .inr fun _ => rfl
  | shorten => exact .inr fun _ => rfl
  | assign => exact .inr fun _ => rfl
  | declare => exact .inr fun _ => rfl

/-- The keyword of a statement that is removed does nothing else. -/
theorem Does.eq_remove (hfits : stream.Fits) (h : stream.Does id act)
    (hremoval : stream.Removal id last) : act = .remove last := by
  have hword : stream.IsKeyword id "import" ∨ stream.IsKeyword id "export" := by
    cases hremoval with
    | importing hword _ _ _ => exact .inl hword
    | exporting hword _ _ _ _ => exact .inr hword
  cases h with
  | remove h => rw [h.unique hfits hremoval]
  | shorten hshort =>
    rcases hshort with hshort | hshort <;> rcases hword with hword | hword <;>
      exact absurd (hshort.unique hword) (by decide)
  | @assign keyword target rest hexport hitems hdefault =>
    cases hremoval with
    | importing hword _ _ _ => exact absurd (hexport.unique hword) (by decide)
    | exporting _ hitems' hopened _ _ =>
      obtain ⟨rfl, -⟩ := List.cons.inj (hitems.symm.trans hitems')
      exact absurd (hdefault.symm.trans hopened) (by decide)
  | @declare header rest name hexport hitems hheader _ =>
    cases hremoval with
    | importing hword _ _ _ => exact absurd (hexport.unique hword) (by decide)
    | exporting _ hitems' hopened _ _ =>
      obtain ⟨word, later, rfl, hfirst⟩ := hheader.cons
      obtain ⟨rfl, -⟩ := List.cons.inj (hitems.symm.trans hitems')
      rw [hopened] at hfirst
      exact absurd hfirst (by decide)
  | idle hother himport =>
    cases hremoval with
    | exporting hword _ _ _ _ => exact absurd hword (hother "export" (by simp))
    | @importing clause rest path hword hitems hclause hpath =>
      have hremoval := Removal.importing hword hitems hclause hpath
      exact absurd (himport hword)
        (hremoval.not_dynamic hfits (Nat.le_refl _) (Nat.le_of_lt hremoval.lt) hword)

/-! ## Where the pass looks -/

/-- The pass looks at the token: it comes to the first one, goes on with the next one, and goes on
behind a statement that it has removed. -/
inductive Reached (stream : TokenStream) : Nat → Prop where
  | start : Reached stream 0
  | next {id : Nat} (h : stream.Reached id) (hstays : ∀ last, ¬ stream.Removal id last) :
      Reached stream (id + 1)
  | behind {first last : Nat} (h : stream.Reached first) (hremoval : stream.Removal first last) :
      Reached stream (last + 1)

/-- The pass removes the statement. -/
structure Removes (stream : TokenStream) (first last : Nat) : Prop where
  reached : stream.Reached first
  removal : stream.Removal first last

/-- The pass looks at no token of a statement that it has removed. -/
theorem Removes.lt_of_reached (hfits : stream.Fits) (h : stream.Removes first last)
    (hreached : stream.Reached j) (hlt : first < j) : last < j := by
  obtain ⟨hfirst, hremoval⟩ := h
  -- by strong induction on the place behind, since the two tokens can change roles
  induction j using Nat.strongRecOn generalizing first last with
  | ind j ih =>
    cases hreached with
    | start => exact absurd hlt (Nat.not_lt_zero _)
    | @next id hid hstays =>
      rcases Nat.lt_or_eq_of_le (Nat.le_of_lt_succ hlt) with hbefore | rfl
      · exact Nat.lt_succ_of_lt (ih id (Nat.lt_succ_self id) hid hbefore hfirst hremoval)
      · exact absurd hremoval (hstays last)
    | @behind other final hother hfinal =>
      rcases Nat.lt_trichotomy first other with hbefore | rfl | hafter
      · have hlast := ih other (Nat.lt_succ_of_lt hfinal.lt) hother hbefore hfirst hremoval
        have := hfinal.lt
        omega
      · rw [hremoval.unique hfits hfinal]
        exact Nat.lt_succ_self final
      · have hfinal' := ih first hlt hfirst hafter hother hfinal
        omega

/-- Every token is looked at or belongs to a statement that is removed. -/
theorem reached_or_removed (id : Nat) :
    stream.Reached id ∨ ∃ first last, stream.Removes first last ∧ first < id ∧ id ≤ last := by
  induction id with
  | zero => exact .inl .start
  | succ id ih =>
    rcases ih with hreached | ⟨first, last, hremoves, hfirst, hlast⟩
    · by_cases hremoval : ∃ last, stream.Removal id last
      · obtain ⟨last, hremoval⟩ := hremoval
        exact .inr ⟨id, last, ⟨hreached, hremoval⟩, Nat.lt_succ_self id, hremoval.lt⟩
      · exact .inl (.next hreached fun last h => hremoval ⟨last, h⟩)
    · rcases Nat.lt_or_eq_of_le hlast with hlt | rfl
      · exact .inr ⟨first, last, hremoves, Nat.lt_succ_of_lt hfirst, hlt⟩
      · exact .inl (.behind hremoves.reached hremoves.removal)

end TokenStream

/-! ## The run -/

namespace Rewriting

open TokenStream

variable {exportsName : String} {stream : TokenStream} {count : Nat} {state next : Rewriting}
  {acts : Nat → Act}

/-- What is known when the pass has visited the first `count` tokens, if the token `id` asked for
the act `acts id`. -/
structure Ran (exportsName : String) (stream : TokenStream) (acts : Nat → Act) (count : Nat)
    (state : Rewriting) : Prop where
  same : state.stream.Same stream
  reached : stream.Reached (max count state.resume)
  skipped : ∀ id, count ≤ id → id < state.resume → ¬ stream.Reached id
  does : ∀ id, id < count → stream.Reached id → stream.Does id (acts id)
  /-- the last act that writes a token decides -/
  written : ∀ id j text, id < count → j < stream.size → stream.Reached id →
    (acts id).writes exportsName id j = some text →
    (∀ later, id < later → later < count → stream.Reached later →
      (acts later).writes exportsName later j = none) →
    state.stream.replacement? j = some text
  unwritten : ∀ j, j < stream.size →
    (∀ id, id < count → stream.Reached id → (acts id).writes exportsName id j = none) →
    state.stream.replacement? j = none
  records : (∀ id, id < count → stream.Reached id → acts id = .idle ∨ acts id = .shorten) →
    state.imports = [] ∧ state.exports = []

/-- A token that is passed over asks for nothing. -/
theorem Ran.skip (h : Ran exportsName stream acts count state) (hlt : count < state.resume) :
    Ran exportsName stream acts (count + 1) state := by
  have hnot := h.skipped count (Nat.le_refl _) hlt
  have hlater : ∀ id, id < count + 1 → stream.Reached id → id < count := by
    intro id hid hreached
    rcases Nat.lt_or_eq_of_le (Nat.le_of_lt_succ hid) with hlt | rfl
    · exact hlt
    · exact absurd hreached hnot
  refine ⟨h.same, ?_, fun id hid => h.skipped id (by omega), fun id hid hreached =>
    h.does id (hlater id hid hreached) hreached, ?_, ?_, ?_⟩
  · rw [show max (count + 1) state.resume = max count state.resume by omega]
    exact h.reached
  · intro id j text hid hj hreached hwrites hlast
    exact h.written id j text (hlater id hid hreached) hj hreached hwrites fun later hlt' hcount =>
      hlast later hlt' (by omega)
  · exact fun j hj hnone => h.unwritten j hj fun id hid => hnone id (by omega)
  · exact fun hidle => h.records fun id hid => hidle id (by omega)

/-- Only the acts of the visited tokens count. -/
theorem Ran.congr {acts' : Nat → Act} (h : Ran exportsName stream acts count state)
    (hacts : ∀ id, id < count → acts' id = acts id) :
    Ran exportsName stream acts' count state where
  same := h.same
  reached := h.reached
  skipped := h.skipped
  does id hid hreached := hacts id hid ▸ h.does id hid hreached
  written id j text hid hj hreached hwrites hlast :=
    h.written id j text hid hj hreached (hacts id hid ▸ hwrites) fun later hlt hcount hlater =>
      hacts later hcount ▸ hlast later hlt hcount hlater
  unwritten j hj hnone :=
    h.unwritten j hj fun id hid hreached => hacts id hid ▸ hnone id hid hreached
  records hidle := h.records fun id hid hreached => hacts id hid ▸ hidle id hid hreached

/-- A token that is looked at has its act performed. -/
theorem Ran.perform (hfits : stream.Fits) (h : Ran exportsName stream acts count state)
    (hle : state.resume ≤ count) (hdoes : stream.Does count (acts count))
    (hperforms : Performs exportsName count (acts count) state next) :
    Ran exportsName stream acts (count + 1) next := by
  have hcount : stream.Reached count := by
    have hreached := h.reached
    rwa [Nat.max_eq_left hle] at hreached
  have hreplacement (j : Nat) (hj : j < stream.size) :=
    hperforms.replacement j (by rw [h.same.size]; exact hj)
  refine ⟨hperforms.same.trans h.same, ?_, ?_, ?_, ?_, ?_, ?_⟩
  · -- the pass goes on behind a statement that it removes, else with the next token
    rw [hperforms.resume]
    rcases hdoes.resume_cases with ⟨last, hremoval, hact⟩ | hresume
    · rw [hact]
      have hlt := hremoval.lt
      show stream.Reached (max (count + 1) (last + 1))
      rw [Nat.max_eq_right (by omega)]
      exact .behind hcount hremoval
    · rw [hresume, Nat.max_eq_left (by omega)]
      refine .next hcount fun last hremoval => ?_
      have hjump := hresume 0
      rw [hdoes.eq_remove hfits hremoval] at hjump
      exact absurd hjump (Nat.succ_ne_zero last)
  · intro id hid hresume hreached
    rw [hperforms.resume] at hresume
    rcases hdoes.resume_cases with ⟨last, hremoval, hact⟩ | hstays
    · rw [hact] at hresume
      have hlast := Removes.lt_of_reached hfits ⟨hcount, hremoval⟩ hreached (by omega)
      have hlt : id < last + 1 := hresume
      omega
    · rw [hstays] at hresume
      omega
  · intro id hid hreached
    rcases Nat.lt_or_eq_of_le (Nat.le_of_lt_succ hid) with hlt | rfl
    · exact h.does id hlt hreached
    · exact hdoes
  · intro id j text hid hj hreached hwrites hlast
    rw [hreplacement j hj]
    rcases Nat.lt_or_eq_of_le (Nat.le_of_lt_succ hid) with hlt | rfl
    · rw [hlast count hlt (by omega) hcount, Option.none_or]
      exact h.written id j text hlt hj hreached hwrites fun later hlater hbefore =>
        hlast later hlater (by omega)
    · rw [hwrites, Option.some_or]
  · intro j hj hnone
    rw [hreplacement j hj, hnone count (by omega) hcount, Option.none_or]
    exact h.unwritten j hj fun id hid => hnone id (by omega)
  · intro hidle
    obtain ⟨himports, hexports⟩ := hperforms.records (hidle count (by omega) hcount)
    rw [himports, hexports]
    exact h.records fun id hid => hidle id (by omega)

theorem ran_start (exportsName : String) (stream : TokenStream) (acts : Nat → Act)
    (hfresh : ∀ j, stream.replacement? j = none) :
    Ran exportsName stream acts 0 ⟨stream, [], [], 0⟩ where
  same := .refl _
  reached := .start
  skipped _ _ hlt := absurd hlt (Nat.not_lt_zero _)
  does _ hlt := absurd hlt (Nat.not_lt_zero _)
  written _ _ _ hlt := absurd hlt (Nat.not_lt_zero _)
  unwritten j _ _ := hfresh j
  records _ := ⟨rfl, rfl⟩

/-- The last visit of a run. -/
theorem visit_of_foldlM {initial : Rewriting}
    (h : (List.range (count + 1)).foldlM (visit exportsName) initial = .ok state) :
    ∃ before, (List.range count).foldlM (visit exportsName) initial = .ok before ∧
      visit exportsName before count = .ok state := by
  rw [List.range_succ, List.foldlM_append] at h
  cases hbefore : (List.range count).foldlM (visit exportsName) initial with
  | error error =>
    rw [hbefore] at h
    exact absurd h (by simp [bind, Except.bind])
  | ok before =>
    rw [hbefore] at h
    refine ⟨before, rfl, ?_⟩
    cases hvisit : visit exportsName before count with
    | error error => simp [bind, Except.bind, List.foldlM_cons, hvisit] at h
    | ok found =>
      simp only [bind, Except.bind, List.foldlM_cons, List.foldlM_nil, hvisit, pure,
        Except.pure] at h
      exact h

/-- **The run**, by induction on the number of tokens that have been visited. -/
theorem ran_of_foldlM (hfits : stream.Fits) (hlinked : stream.Linked)
    (hfresh : ∀ j, stream.replacement? j = none) (count : Nat) (hcount : count ≤ stream.size)
    (h : (List.range count).foldlM (visit exportsName) ⟨stream, [], [], 0⟩ = .ok state) :
    ∃ acts, Ran exportsName stream acts count state := by
  induction count generalizing state with
  | zero =>
    obtain rfl := Except.ok.inj h
    exact ⟨fun _ => .idle, ran_start exportsName stream _ hfresh⟩
  | succ count ih =>
    obtain ⟨before, hbefore, hvisit⟩ := visit_of_foldlM h
    obtain ⟨acts, hran⟩ := ih (by omega) hbefore
    rcases visit_cases hlinked (by omega) hran.same hvisit with
      ⟨hskipped, rfl⟩ | ⟨hlooked, act, hdoes, hperforms⟩
    · exact ⟨acts, hran.skip hskipped⟩
    · let acts' : Nat → Act := fun id => if id = count then act else acts id
      have hact : acts' count = act := if_pos rfl
      have hran' : Ran exportsName stream acts' count before :=
        hran.congr fun id hid => if_neg (Nat.ne_of_lt hid)
      exact ⟨acts', hran'.perform hfits hlooked (hact ▸ hdoes) (hact ▸ hperforms)⟩

end Rewriting

end ScriptLink
