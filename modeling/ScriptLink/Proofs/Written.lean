import ScriptLink.Proofs.Frame

/-!
# What is written from a place on

Between the statements that the pass acts on there are places where it starts afresh: nothing that
came before writes anything from there on, except for the assignment to a target that begins right
there. From each such place to the next, what is written is known from one act.

* **`TokenStream.writtenFrom`** — what the tokens from a place on contribute to the output.
* **`Rewriting.Boundary`** — the places. A run begins at one (`Boundary.start`), and each act leads
  to the next: `Boundary.next`, `Boundary.behind`, `Boundary.target`, `Boundary.declared`.
* **`Boundary.written_eq`**, **`Boundary.written_of_idle`** — what is written for the tokens
  between.
-/

namespace ScriptLink

open TokenStream Rewriting

/-- The tokens of a header are its words and the star. -/
theorem IsHeader.text_of_mem {header : List Item} (h : IsHeader header) :
    ∀ item ∈ header, item.text ∈ "async" :: "*" :: ExportStatement.declarators := by
  obtain ⟨before, declarator, after, rfl, hbefore, hdeclarator, hafter⟩ := h
  intro item hmem
  rcases List.mem_append.mp hmem with hmem | hmem
  · rcases hbefore with rfl | ⟨word, rfl, hword⟩
    · exact absurd hmem List.not_mem_nil
    · rw [List.mem_singleton.mp hmem, hword]
      exact List.mem_cons_self
  · rcases List.mem_cons.mp hmem with rfl | hmem
    · exact List.mem_cons_of_mem _ (List.mem_cons_of_mem _ hdeclarator)
    · rcases hafter with rfl | ⟨star, rfl, hstar⟩
      · exact absurd hmem List.not_mem_nil
      · rw [List.mem_singleton.mp hmem, hstar]
        exact List.mem_cons_of_mem _ List.mem_cons_self

theorem IsHeader.not_statement {header : List Item} (h : IsHeader header) :
    ∀ item ∈ header, item.text ≠ "export" ∧ item.text ≠ "import" := by
  have hall : ∀ text ∈ "async" :: "*" :: ExportStatement.declarators,
      text ≠ "export" ∧ text ≠ "import" := by decide
  exact fun item hmem => hall _ (h.text_of_mem item hmem)

namespace TokenStream

variable {stream : TokenStream} {id stop j k first last start : Nat} {act : Act} {item : Item}
  {body rest : List Item}

/-- What the tokens from `start` on contribute to the output. -/
def writtenFrom (stream : TokenStream) (start : Nat) : List Char :=
  (List.range' start (stream.size - start)).flatMap fun id => (stream.written id).toList

theorem writtenFrom_eq (h : start < stream.size) :
    stream.writtenFrom start = (stream.written start).toList ++ stream.writtenFrom (start + 1) := by
  unfold writtenFrom
  rw [show stream.size - start = stream.size - (start + 1) + 1 by omega, List.range'_succ,
    List.flatMap_cons]

theorem writtenFrom_of_le (h : stream.size ≤ start) : stream.writtenFrom start = [] := by
  unfold writtenFrom
  rw [Nat.sub_eq_zero_of_le h]
  rfl

theorem toList_render (stream : TokenStream) : stream.render.toList = stream.writtenFrom 0 := by
  have hjoin (ids : List Nat) : (String.join (ids.map stream.written)).toList =
      ids.flatMap fun id => (stream.written id).toList := by
    induction ids with
    | nil => rfl
    | cons id rest ih =>
      rw [List.map_cons, String.join_cons, String.toList_append, ih, List.flatMap_cons]
  rw [render_eq, hjoin, List.range_eq_range']
  rfl

/-- Tokens that write nothing do not count. -/
theorem writtenFrom_of_empty (hle : start ≤ stop) (hstop : stop ≤ stream.size)
    (h : ∀ j, start ≤ j → j < stop → stream.written j = "") :
    stream.writtenFrom start = stream.writtenFrom stop := by
  induction hle with
  | refl => rfl
  | @step stop hle ih =>
    rw [ih (by omega) fun j hj hlt => h j hj (by omega), writtenFrom_eq (by omega),
      h stop hle (Nat.lt_succ_self stop)]
    rfl

/-- The token comes back as it was, or as `var` if it is `let` or `const`. -/
structure Shortens (written stream : TokenStream) (id : Nat) : Prop where
  short : stream.IsKeyword id "let" ∨ stream.IsKeyword id "const" → written.written id = "var"
  own : ¬ (stream.IsKeyword id "let" ∨ stream.IsKeyword id "const") →
    written.written id = stream.lexeme id

/-! ## Between the keyword of a statement and one of its tokens -/

theorem Removal.isKeyword (h : stream.Removal first last) :
    stream.IsKeyword first "export" ∨ stream.IsKeyword first "import" := by
  cases h with
  | importing hword _ _ _ => exact .inr hword
  | exporting hword _ _ _ _ => exact .inl hword

/-- A token that begins no statement does nothing, or becomes `var`. -/
theorem Does.of_other (h : stream.Does id act)
    (hno : ¬ stream.IsKeyword id "export" ∧ ¬ stream.IsKeyword id "import") :
    act = .idle ∨ act = .shorten := by
  cases h with
  | idle _ _ => exact .inl rfl
  | shorten _ => exact .inr rfl
  | remove hremoval => exact absurd hremoval.isKeyword (not_or.mpr hno)
  | assign hword _ _ => exact absurd hword hno.1
  | declare hword _ _ _ => exact absurd hword hno.1

theorem Does.eq_idle (h : stream.Does id act) (hkind : stream.kind? id ≠ some .keyword) :
    act = .idle := by
  cases h with
  | idle _ _ => rfl
  | shorten hword => exact hword.elim (absurd ·.kind hkind) (absurd ·.kind hkind)
  | remove hremoval =>
    exact hremoval.isKeyword.elim (absurd ·.kind hkind) (absurd ·.kind hkind)
  | assign hword _ _ => exact absurd hword.kind hkind
  | declare hword _ _ _ => exact absurd hword.kind hkind

/-- Between a keyword and a token of its statement, no other statement begins. -/
theorem not_statement_of_between (hitems : stream.itemsFrom (id + 1) = body ++ item :: rest)
    (hbody : ∀ other ∈ body, other.text ≠ "export" ∧ other.text ≠ "import") (hlt : id < k)
    (hk : k < item.id) : ¬ stream.IsKeyword k "export" ∧ ¬ stream.IsKeyword k "import" := by
  have hno {word : String} (hword : stream.IsKeyword k word) :
      ∃ other ∈ body, other.text = word := by
    obtain ⟨other, hother⟩ := isMeaningful_iff.mp ⟨.keyword, hword.kind, rfl⟩
    exact ⟨other, (itemsFrom_split _ hitems).2.2.2 k other hlt hk hother,
      (lexeme_of_meaningful? hother).symm.trans hword.reads⟩
  constructor <;> intro hword <;> obtain ⟨other, hmem, htext⟩ := hno hword
  · exact (hbody other hmem).1 htext
  · exact (hbody other hmem).2 htext

/-- The pass goes on from token to token where no statement is removed. -/
theorem Reached.through (h : stream.Reached id) (hle : id ≤ stop)
    (hstays : ∀ k, id ≤ k → k < stop → ∀ last, ¬ stream.Removal k last) : stream.Reached stop := by
  induction hle with
  | refl => exact h
  | @step stop hle ih =>
    exact .next (ih fun k hk hlt => hstays k hk (by omega))
      (hstays stop hle (Nat.lt_succ_self stop))

end TokenStream

namespace Rewriting

variable {exportsName : String} {stream : TokenStream} {state : Rewriting} {acts : Nat → Act}
  {id stop j : Nat} {atTarget atTarget' : Bool}

/-- What is written in place of a token was written by the act of that token or of one before. -/
theorem Ran.replacement_cases (h : Ran exportsName stream acts stream.size state)
    (hj : j < stream.size) : state.stream.replacement? j = none ∨
      ∃ k text, k ≤ j ∧ stream.Reached k ∧ (acts k).writes exportsName k j = some text ∧
        state.stream.replacement? j = some text := by
  -- by induction on the number of tokens among which the last writer is
  have hlast : ∀ count, count ≤ stream.size → (∀ k, count ≤ k → k < stream.size →
      stream.Reached k → (acts k).writes exportsName k j = none) →
      state.stream.replacement? j = none ∨
        ∃ k text, k ≤ j ∧ stream.Reached k ∧ (acts k).writes exportsName k j = some text ∧
          state.stream.replacement? j = some text := by
    intro count
    induction count with
    | zero => exact fun _ hnone => .inl (h.unwritten j hj fun k hk => hnone k (Nat.zero_le k) hk)
    | succ count ih =>
      intro hcount hnone
      by_cases hwriter : stream.Reached count ∧ (acts count).writes exportsName count j ≠ none
      · obtain ⟨hreached, hwrites⟩ := hwriter
        obtain ⟨text, htext⟩ := Option.ne_none_iff_exists'.mp hwrites
        exact .inr ⟨count, text, (h.does count (by omega) hreached).le_of_writes htext, hreached,
          htext,
          h.written count j text (by omega) hj hreached htext fun later hlt => hnone later hlt⟩
      · refine ih (by omega) fun k hk hsize hreached => ?_
        rcases Nat.eq_or_lt_of_le hk with rfl | hlt
        · exact Classical.not_not.mp fun hne => hwriter ⟨hreached, hne⟩
        · exact hnone k hlt hsize hreached
  exact hlast stream.size (Nat.le_refl _) fun k hk hlt => absurd hlt (by omega)

/-- A place between two acts: the pass looks at it, and what came before writes nothing from there
on, except the assignment to a `target` that stands right there. -/
structure Boundary (exportsName : String) (stream : TokenStream) (acts : Nat → Act)
    (atTarget : Bool) (id : Nat) : Prop where
  reached : stream.Reached id
  clear : ∀ k, k < id → stream.Reached k → ∀ j text, id ≤ j →
    (acts k).writes exportsName k j = some text →
      atTarget = true ∧ j = id ∧ text = Act.assigned exportsName (stream.lexeme id)

namespace Boundary

theorem start : Boundary exportsName stream acts false 0 :=
  ⟨.start, fun _ hk => absurd hk (Nat.not_lt_zero _)⟩

/-- From a boundary to the next, over tokens that write to themselves at most. -/
theorem advance (h : Boundary exportsName stream acts atTarget id) (hlt : id < stop)
    (hreached : stream.Reached stop)
    (hown : ∀ j text, stop ≤ j → (acts id).writes exportsName id j = some text →
      atTarget' = true ∧ j = stop ∧ text = Act.assigned exportsName (stream.lexeme stop))
    (hbetween : ∀ k, id < k → k < stop → stream.Reached k → acts k = .idle ∨ acts k = .shorten) :
    Boundary exportsName stream acts atTarget' stop := by
  refine ⟨hreached, fun k hk hkreached j text hj hwrites => ?_⟩
  rcases Nat.lt_trichotomy k id with hbefore | rfl | hafter
  · obtain ⟨-, rfl, -⟩ := h.clear k hbefore hkreached j text (by omega) hwrites
    exact absurd hj (by omega)
  · exact hown j text hj hwrites
  · rcases hbetween k hafter hk hkreached with hidle | hshort
    · rw [hidle, Act.writes] at hwrites
      exact absurd hwrites (by simp)
    · rw [hshort, Act.writes, if_neg (by omega)] at hwrites
      exact absurd hwrites (by simp)

/-- A token behind a boundary to which nothing writes comes back as it was. -/
theorem written_eq (h : Boundary exportsName stream acts atTarget id)
    (hran : Ran exportsName stream acts stream.size state) (hlt : id < j) (hj : j < stream.size)
    (hnone : ∀ k, id ≤ k → k ≤ j → stream.Reached k → (acts k).writes exportsName k j = none) :
    state.stream.written j = stream.lexeme j := by
  rw [hran.written_eq]
  rcases hran.replacement_cases hj with hnothing | ⟨k, text, hle, hreached, hwrites, -⟩
  · rw [hnothing]
    rfl
  · rcases Nat.lt_or_ge k id with hbefore | hge
    · obtain ⟨-, rfl, -⟩ := h.clear k hbefore hreached j text (by omega) hwrites
      exact absurd hlt (by omega)
    · rw [hnone k hge hle hreached] at hwrites
      exact absurd hwrites (by simp)

/-- A token at a boundary that does nothing comes back as it was, or as the end of an assignment. -/
theorem written_of_idle (h : Boundary exportsName stream acts atTarget id)
    (hran : Ran exportsName stream acts stream.size state) (hid : id < stream.size)
    (hidle : acts id = .idle) : state.stream.written id = stream.lexeme id ∨
      (atTarget = true ∧
        state.stream.written id = Act.assigned exportsName (stream.lexeme id)) := by
  rw [hran.written_eq]
  rcases hran.replacement_cases hid with hnothing | ⟨k, text, hle, hreached, hwrites, htext⟩
  · rw [hnothing]
    exact .inl rfl
  · rcases Nat.lt_or_eq_of_le hle with hbefore | rfl
    · obtain ⟨htarget, -, rfl⟩ := h.clear k hbefore hreached id text (Nat.le_refl _) hwrites
      rw [htext]
      exact .inr ⟨htarget, rfl⟩
    · rw [hidle, Act.writes] at hwrites
      exact absurd hwrites (by simp)

/-! ### The next boundary -/

section

variable {last : Nat} {keyword item : Item} {header body rest : List Item}
  (hfits : stream.Fits) (hran : Ran exportsName stream acts stream.size state)

include hfits hran

/-- Behind a token that writes to itself at most. -/
theorem next (h : Boundary exportsName stream acts atTarget id) (hid : id < stream.size)
    (hact : acts id = .idle ∨ acts id = .shorten) :
    Boundary exportsName stream acts false (id + 1) := by
  refine h.advance (Nat.lt_succ_self id) (.next h.reached fun last hremoval => ?_)
    (fun j text hj hwrites => ?_) fun k hk hlt => absurd hlt (by omega)
  · rw [(hran.does id hid h.reached).eq_remove hfits hremoval] at hact
    exact absurd hact (by simp)
  · rcases hact with hidle | hshort
    · rw [hidle, Act.writes] at hwrites
      exact absurd hwrites (by simp)
    · rw [hshort, Act.writes, if_neg (by omega)] at hwrites
      exact absurd hwrites (by simp)

/-- Behind a statement that is removed. -/
theorem behind (h : Boundary exportsName stream acts atTarget id)
    (hremoval : stream.Removal id last) : Boundary exportsName stream acts false (last + 1) := by
  have hlt := hremoval.lt
  have hsize := hremoval.lt_size
  refine h.advance (by omega) (.behind h.reached hremoval) (fun j text hj hwrites => ?_)
    fun k hk hlast hreached => ?_
  · rw [(hran.does id (by omega) h.reached).eq_remove hfits hremoval, Act.writes,
      if_neg (by omega)] at hwrites
    exact absurd hwrites (by simp)
  · have := Removes.lt_of_reached hfits ⟨h.reached, hremoval⟩ hreached hk
    omega

/-- Between an export that stays and one of its tokens, the pass looks at every token, and the
tokens write to themselves at most. -/
theorem between (h : Boundary exportsName stream acts atTarget id) (hid : id < stream.size)
    (hact : ∀ last, acts id ≠ .remove last)
    (hitems : stream.itemsFrom (id + 1) = body ++ item :: rest)
    (hbody : ∀ other ∈ body, other.text ≠ "export" ∧ other.text ≠ "import") :
    (∀ k, id ≤ k → k ≤ item.id → stream.Reached k) ∧
      ∀ k, id < k → k < item.id → acts k = .idle ∨ acts k = .shorten := by
  have hsize := lt_size_of_meaningful? (itemsFrom_split _ hitems).2.1
  have hreached : ∀ k, id ≤ k → k ≤ item.id → stream.Reached k := by
    refine fun k hk hle => h.reached.through hk fun j hj hlt last hremoval => ?_
    rcases Nat.eq_or_lt_of_le hj with rfl | hj
    · exact hact last ((hran.does id hid h.reached).eq_remove hfits hremoval)
    · exact absurd hremoval.isKeyword
        (not_or.mpr (not_statement_of_between hitems hbody hj (by omega)))
  refine ⟨hreached, fun k hk hlt => ?_⟩
  exact (hran.does k (by omega) (hreached k (by omega) (by omega))).of_other
    (not_statement_of_between hitems hbody hk hlt)

/-- Between an export that stays and one of its tokens, a token to which the export does not write
comes back as it was, with `var` for `let` and `const`. -/
theorem written_of_between (h : Boundary exportsName stream acts atTarget id)
    (hid : id < stream.size) (hact : ∀ last, acts id ≠ .remove last)
    (hitems : stream.itemsFrom (id + 1) = body ++ item :: rest)
    (hbody : ∀ other ∈ body, other.text ≠ "export" ∧ other.text ≠ "import") (hlt : id < j)
    (hj : j < item.id) (hnone : (acts id).writes exportsName id j = none) :
    state.stream.Shortens stream j := by
  have hsize := lt_size_of_meaningful? (itemsFrom_split _ hitems).2.1
  obtain ⟨hreached, hbetween⟩ := h.between hfits hran hid hact hitems hbody
  refine ⟨fun hword => hran.written_of_shortened hword (hreached j (by omega) (by omega)),
    fun hword => h.written_eq hran hlt (by omega) fun k hk hle _ => ?_⟩
  rcases Nat.eq_or_lt_of_le hk with rfl | hk
  · exact hnone
  · rcases hbetween k hk (by omega) with hidle | hshort
    · rw [hidle, Act.writes]
    · have hne : j ≠ k := by
        rintro rfl
        have hdoes := hran.does j (by omega) (hreached j (by omega) (by omega))
        rw [hshort] at hdoes
        cases hdoes with
        | shorten hshorten => exact hword hshorten
      rw [hshort, Act.writes, if_neg hne]

/-! ### Default exports -/

section

variable (h : Boundary exportsName stream acts atTarget id) (hid : id < stream.size)
  (hact : acts id = .assign keyword.id item)
  (hitems : stream.itemsFrom (id + 1) = keyword :: item :: rest)
  (hdefault : keyword.text = defaultName)

include h hid hact hitems hdefault

theorem between_of_assign : (∀ k, id ≤ k → k ≤ item.id → stream.Reached k) ∧
    ∀ k, id < k → k < item.id → acts k = .idle ∨ acts k = .shorten := by
  have hitems' : stream.itemsFrom (id + 1) = [keyword] ++ item :: rest := hitems
  refine h.between hfits hran hid (by simp [hact]) hitems' fun other hmem => ?_
  rw [List.mem_singleton.mp hmem, hdefault]
  decide

/-- The target is a boundary. -/
theorem target : Boundary exportsName stream acts true item.id := by
  obtain ⟨hle, hmeans, -, -⟩ := itemsFrom_split [keyword] hitems
  have hkeyword := (itemsFrom_split [] hitems).1
  have hbehind := (itemsFrom_split [] (itemsFrom_split [] hitems).2.2.1).1
  obtain ⟨hreached, hbetween⟩ := h.between_of_assign hfits hran hid hact hitems hdefault
  refine h.advance (by omega) (hreached _ (by omega) (Nat.le_refl _)) (fun j text hj hwrites => ?_)
    fun k hk hlt _ => hbetween k hk hlt
  rw [hact, Act.writes] at hwrites
  split at hwrites
  · next heq =>
    refine ⟨rfl, heq, ?_⟩
    rw [lexeme_of_meaningful? hmeans]
    exact (Option.some.inj hwrites).symm
  · rw [if_neg (by omega), if_neg (by omega)] at hwrites
    exact absurd hwrites (by simp)

/-- The word `default` writes nothing. -/
theorem written_of_default : state.stream.written keyword.id = "" := by
  have hmeans := (itemsFrom_split [] hitems).2.1
  have hkeyword := (itemsFrom_split [] hitems).1
  have hbehind := (itemsFrom_split [] (itemsFrom_split [] hitems).2.2.1).1
  obtain ⟨hreached, hbetween⟩ := h.between_of_assign hfits hran hid hact hitems hdefault
  have hitem := hreached keyword.id (by omega) (by omega)
  refine hran.written_of_export hfits [] h.reached hitems
    (fun other hmem => absurd hmem List.not_mem_nil) ?_ hitem ?_
  · rw [hact, Act.writes, if_neg (by omega), if_pos rfl]
  · rcases hbetween keyword.id (by omega) (by omega) with hidle | hshorten
    · rw [hidle, Act.writes]
    · have hdoes := hran.does keyword.id (lt_size_of_meaningful? hmeans) hitem
      have htext := (lexeme_of_meaningful? hmeans).trans hdefault
      rw [hshorten] at hdoes
      cases hdoes with
      | shorten hword =>
        rcases hword with hword | hword <;>
          exact absurd (htext.symm.trans hword.reads) (by decide)

theorem shortens_of_assign (hlt : id < j) (hj : j < item.id) (hne : j ≠ keyword.id) :
    state.stream.Shortens stream j := by
  have hitems' : stream.itemsFrom (id + 1) = [keyword] ++ item :: rest := hitems
  refine h.written_of_between hfits hran hid (by simp [hact]) hitems' (fun other hmem => ?_) hlt hj
    ?_
  · rw [List.mem_singleton.mp hmem, hdefault]
    decide
  · rw [hact, Act.writes, if_neg (by omega), if_neg hne, if_neg (by omega)]

end

/-! ### Exported declarations -/

section

variable (h : Boundary exportsName stream acts atTarget id) (hid : id < stream.size)
  (hact : acts id = .declare item)
  (hitems : stream.itemsFrom (id + 1) = header ++ item :: rest) (hheader : IsHeader header)
  (hname : item.kind = .identifier)

include h hid hact hitems hheader hname

/-- Behind the declared name there is a boundary. -/
theorem declared : Boundary exportsName stream acts false (item.id + 1) := by
  obtain ⟨hle, hmeans, -, -⟩ := itemsFrom_split _ hitems
  have hsize := lt_size_of_meaningful? hmeans
  obtain ⟨hreached, hbetween⟩ :=
    h.between hfits hran hid (by simp [hact]) hitems hheader.not_statement
  have hkind : stream.kind? item.id ≠ some .keyword := by
    rw [kind?_of_meaningful? hmeans, hname]
    simp
  have hitem := hreached item.id (by omega) (Nat.le_refl _)
  refine h.advance (by omega) (.next hitem fun last hremoval => ?_) (fun j text hj hwrites => ?_)
    fun k hk hlt _ => ?_
  · exact hremoval.isKeyword.elim (absurd ·.kind hkind) (absurd ·.kind hkind)
  · rw [hact, Act.writes, if_neg (by omega), if_neg (by omega)] at hwrites
    exact absurd hwrites (by simp)
  · rcases Nat.lt_or_eq_of_le (Nat.le_of_lt_succ hlt) with hlt | rfl
    · exact hbetween k hk hlt
    · exact .inl ((hran.does _ hsize hitem).eq_idle hkind)

/-- The declared name gets its mark. -/
theorem written_of_declared : state.stream.written item.id = Act.marked item.text := by
  obtain ⟨hle, hmeans, -, -⟩ := itemsFrom_split _ hitems
  have hreached := (h.between hfits hran hid (by simp [hact]) hitems hheader.not_statement).1
  have hitem := hreached item.id (by omega) (Nat.le_refl _)
  refine hran.written_of_export hfits header h.reached hitems
    (fun other hmem => (hheader.not_statement other hmem).1) ?_ hitem ?_
  · rw [hact, Act.writes, if_pos rfl]
  · have hdoes := hran.does item.id (lt_size_of_meaningful? hmeans) hitem
    rw [hdoes.eq_idle (by rw [kind?_of_meaningful? hmeans, hname]; simp), Act.writes]

omit hname in
theorem shortens_of_declare (hlt : id < j) (hj : j < item.id) : state.stream.Shortens stream j := by
  refine h.written_of_between hfits hran hid (by simp [hact]) hitems hheader.not_statement hlt hj ?_
  rw [hact, Act.writes, if_neg (by omega), if_neg (by omega)]

end

end

end Boundary

end Rewriting

end ScriptLink
