import ScriptLink.Proofs.Reading

/-!
# What becomes of a header

The header of an exported declaration stays, with `var` for `let` and `const`, and the name behind
it gets its mark. So what is written from the header on is a revision if what is written behind the
name is one, and the new text begins as the old one does.

* **`StopsAlike`** — no class of characters that matters here goes on in the new text unless it goes
  on in the old one.
* **`Accepted.HeaderRevised`** — what is known of the output from a place in the header on. There is
  a step for the name (`Accepted.headerRevised_of_name`), for the words that stay and for those that
  do not (`Accepted.headerRevised_of_own`, `Accepted.headerRevised_of_short`).
* **`Accepted.headerRevised`** — from behind the name to the beginning of the header.
-/

namespace ScriptLink

open Context Piece TokenStream Rewriting

/-! ## Texts that begin alike -/

/-- A class that cannot tell `var` from the words it stands for stops before the new text if it
stops before the old one. -/
def StopsAlike (old new : List Char) : Prop :=
  ∀ p : Char → Bool, (p 'v' = true → p 'l' = true ∧ p 'c' = true) → Stops p old → Stops p new

namespace StopsAlike

variable {old new : List Char}

theorem cons (c : Char) (old new : List Char) : StopsAlike (c :: old) (c :: new) :=
  fun _ _ h => .cons (h c old rfl)

theorem append (part : List Char) (h : StopsAlike old new) :
    StopsAlike (part ++ old) (part ++ new) := by
  cases part with
  | nil => exact h
  | cons c rest => exact cons c _ _

/-- Such a class sees no difference between `var` and the words it stands for. -/
theorem word {word : List Char} (h : word = "let".toList ∨ word = "const".toList)
    (old new : List Char) : StopsAlike (word ++ old) ("var".toList ++ new) := by
  intro p hp hstops
  have hword : Stops p (word ++ []) := by
    rcases h with rfl | rfl <;> exact .cons (hstops _ _ rfl)
  exact .cons ((Agrees.word h .nil).stops hp hword 'v' ['a', 'r'] rfl)

end StopsAlike

namespace Accepted

variable {source : String} {script : Script} {stream : TokenStream} {acts : Nat → Act}
  {state : Rewriting} {stack : List Interpolation} {start : Nat}

/-- From a place in a header on, what the pass writes revises the pieces and begins as they do. -/
def HeaderRevised (stream : TokenStream) (state : Rewriting) (stack : List Interpolation)
    (before : Option (List Char)) (id : Nat) : Prop :=
  (∃ found, Revision true ⟨.code, stack⟩ before (stream.toPieces.drop id)
      (state.stream.writtenFrom id) found) ∧
    StopsAlike (texts (stream.toPieces.drop id)) (state.stream.writtenFrom id)

section

variable (h : Accepted defaultExportsName source script stream acts state)

include h

theorem size_eq : state.stream.size = stream.size := by
  rw [h.ran.same.size, size_classify]

theorem writtenFrom_eq {id : Nat} (hid : id < stream.size) : state.stream.writtenFrom id =
    (state.stream.written id).toList ++ state.stream.writtenFrom (id + 1) :=
  TokenStream.writtenFrom_eq (by rwa [h.size_eq])

/-- Trivia before a token comes back as it was. -/
theorem writtenFrom_of_gap {item : Item} {piece : Piece}
    (hto : stream.ToItem stack start item piece)
    (hshort : ∀ j, start ≤ j → j < item.id → state.stream.Shortens stream.classify j) :
    state.stream.writtenFrom start =
      texts (stream.piecesBetween start item.id) ++ state.stream.writtenFrom item.id := by
  refine writtenFrom_of_own h.size_eq hto.le (Nat.le_of_lt hto.lt) fun j hj hlt => ?_
  rw [(hshort j hj hlt).own, lexeme_classify]
  rintro (hword | hword) <;> exact hto.between j hj hlt ⟨.keyword, hword.kind, rfl⟩

/-- A reserved word behind what makes no property of it is a keyword. -/
theorem isKeyword_of_isReserved {item : Item} {piece : Piece}
    (hto : stream.ToItem stack start item piece)
    (hname : Identifier.isName item.text.toList = true) (hreserved : isReserved item.text = true)
    (hbefore : ∀ text ∈ guards, lastText? (stream.toPieces.take start) ≠ some text) :
    stream.classify.IsKeyword item.id item.text := by
  have hkind : piece.kind = .identifier := (hto.scanned.name (hto.text ▸ hname)).1
  refine (isKeyword_iff h.tokens hto.lt hreserved).mpr
    ⟨hto.kind.trans (congrArg some hkind), hto.reads, ?_⟩
  rw [hto.lastText?]
  exact not_isProperty hbefore

/-! ## Steps towards the keyword -/

/-- From a token to the trivia before it. -/
theorem headerRevised_of_gap {item : Item} {piece : Piece}
    (hto : stream.ToItem stack start item piece)
    (hshort : ∀ j, start ≤ j → j < item.id → state.stream.Shortens stream.classify j)
    (hitem : HeaderRevised stream state stack (lastText? (stream.toPieces.take start)) item.id) :
    HeaderRevised stream state stack (lastText? (stream.toPieces.take start)) start := by
  obtain ⟨⟨found, hrevision⟩, hstops⟩ := hitem
  unfold HeaderRevised
  rw [h.writtenFrom_of_gap hto hshort, drop_eq_append stream hto.le, texts_append]
  exact ⟨⟨found, hrevision.gap hto.trivia hto.passable⟩, hstops.append _⟩

/-- The declared name gets its mark. -/
theorem headerRevised_of_name {name : Item} {piece : Piece} {found : List Piece}
    (hto : stream.ToItem stack start name piece)
    (hmeans : stream.classify.meaningful? name.id = some name) (hname : name.kind = .identifier)
    (hword : Identifier.isName name.text.toList = true)
    (hbefore : ∀ text ∈ guards, lastText? (stream.toPieces.take start) ≠ some text)
    (hmarked : state.stream.written name.id = Act.marked name.text)
    (hlater : Revision false ⟨.code, stack⟩ (some name.text.toList)
        (stream.toPieces.drop (name.id + 1)) (state.stream.writtenFrom (name.id + 1)) found) :
    HeaderRevised stream state stack (lastText? (stream.toPieces.take start)) name.id := by
  -- as a keyword it would not be an identifier
  have hsafe : name.text.toList ∉ "import".toList :: actedOn := by
    intro hmem
    have hmem' : name.text.toList ∈ ["import", "let", "const", "export"].map String.toList := hmem
    obtain ⟨word, hlisted, heq⟩ := List.mem_map.mp hmem'
    obtain rfl := String.toList_inj.mp heq
    have hall : ∀ word ∈ ["import", "let", "const", "export"], isReserved word = true := by decide
    have hkeyword := (h.isKeyword_of_isReserved hto hword (hall _ hlisted) hbefore).kind
    rw [kind?_of_meaningful? hmeans, hname] at hkeyword
    exact absurd hkeyword (by simp)
  obtain ⟨kind, text⟩ := piece
  obtain rfl : text = name.text.toList := hto.text
  obtain ⟨rfl, -, -⟩ := hto.scanned.name hword
  have hnew : state.stream.writtenFrom name.id = name.text.toList ++
      " /* exported */".toList ++ state.stream.writtenFrom (name.id + 1) := by
    rw [h.writtenFrom_eq hto.lt, hmarked]
    unfold Act.marked Rewriting.exportedMark
    rw [String.toList_append, String.toList_append]
    simp
  unfold HeaderRevised
  rw [hto.drop, hnew]
  refine ⟨⟨_, hlater.marked hword hsafe⟩, ?_⟩
  rw [texts_cons, List.append_assoc]
  cases hchars : name.text.toList with
  | nil => exact absurd (hchars ▸ hword) (by simp [Identifier.isName])
  | cons c rest => exact .cons c _ _

section

variable {word : Item} {piece : Piece} (hto : stream.ToItem stack start word piece)
  (hshort : state.stream.Shortens stream.classify word.id)
  (hlater : HeaderRevised stream state stack (some word.text.toList) (word.id + 1))

include hto hshort hlater

/-- A star, or a word other than `let` and `const`, stays. -/
theorem headerRevised_of_own (hlong : word.text ≠ "let" ∧ word.text ≠ "const")
    (hcases : word.text = "*" ∨ (Identifier.isName word.text.toList = true ∧
      word.text.toList ∉ "import".toList :: actedOn)) :
    HeaderRevised stream state stack (lastText? (stream.toPieces.take start)) word.id := by
  have hown : state.stream.written word.id = word.text := by
    rw [hshort.own, lexeme_classify, hto.reads]
    rintro (hkeyword | hkeyword)
    · exact hlong.1 (by rw [← hto.reads, ← lexeme_classify, hkeyword.reads])
    · exact hlong.2 (by rw [← hto.reads, ← lexeme_classify, hkeyword.reads])
  obtain ⟨⟨found, hrevision⟩, hstops⟩ := hlater
  obtain ⟨kind, text⟩ := piece
  obtain rfl : text = word.text.toList := hto.text
  unfold HeaderRevised
  rw [hto.drop, h.writtenFrom_eq hto.lt, hown, texts_cons]
  refine ⟨?_, hstops.append _⟩
  rcases hcases with hstar | ⟨hname, hsafe⟩
  · obtain ⟨rfl, -, hbehind⟩ := hto.scanned.star (by rw [hstar]; rfl)
    rw [hstar] at hrevision ⊢
    exact ⟨_, hrevision.star (hstops _ (by decide) hbehind)⟩
  · obtain ⟨rfl, -, hbehind⟩ := hto.scanned.name hname
    exact ⟨_, hrevision.word hname hname hsafe (hstops _ (by decide) hbehind)⟩

/-- `let` and `const` become `var`: nothing before them makes properties of them. -/
theorem headerRevised_of_short (hlet : word.text = "let" ∨ word.text = "const")
    (hbefore : ∀ text ∈ guards, lastText? (stream.toPieces.take start) ≠ some text) :
    HeaderRevised stream state stack (lastText? (stream.toPieces.take start)) word.id := by
  have hname : Identifier.isName word.text.toList = true := by
    rcases hlet with hlet | hlet <;> rw [hlet] <;> decide
  have hreserved : isReserved word.text = true := by
    rcases hlet with hlet | hlet <;> rw [hlet] <;> decide
  have hvar : state.stream.written word.id = "var" := by
    have hkeyword := h.isKeyword_of_isReserved hto hname hreserved hbefore
    rcases hlet with hlet | hlet <;> rw [hlet] at hkeyword
    · exact hshort.short (.inl hkeyword)
    · exact hshort.short (.inr hkeyword)
  obtain ⟨⟨found, hrevision⟩, hstops⟩ := hlater
  obtain ⟨kind, text⟩ := piece
  obtain rfl : text = word.text.toList := hto.text
  obtain ⟨rfl, -, hbehind⟩ := hto.scanned.name hname
  unfold HeaderRevised
  rw [hto.drop, h.writtenFrom_eq hto.lt, hvar]
  exact ⟨⟨_, hrevision.word hname (by decide) (by decide) (hstops _ (by decide) hbehind)⟩,
    .word (hlet.imp (by rw [·]) (by rw [·])) _ _⟩

end

/-- **From behind the declared name to the beginning of the header.** -/
theorem headerRevised {header rest : List Item} {name : Item}
    (hscanned : Scanned ⟨.code, stack⟩ (stream.toPieces.drop start))
    (hitems : stream.classify.itemsFrom start = header ++ name :: rest)
    (hheader : ∀ item ∈ header, item.text ∈ "async" :: "*" :: ExportStatement.declarators)
    (hname : name.kind = .identifier) (hword : Identifier.isName name.text.toList = true)
    (hbefore : ∀ text ∈ guards, lastText? (stream.toPieces.take start) ≠ some text)
    (hshort : ∀ j, start ≤ j → j < name.id → state.stream.Shortens stream.classify j)
    (hmarked : state.stream.written name.id = Act.marked name.text)
    (hlater : Scanned ⟨.code, stack⟩ (stream.toPieces.drop (name.id + 1)) → ∃ found,
      Revision false ⟨.code, stack⟩ (some name.text.toList)
        (stream.toPieces.drop (name.id + 1)) (state.stream.writtenFrom (name.id + 1)) found) :
    HeaderRevised stream state stack (lastText? (stream.toPieces.take start)) start := by
  -- by induction on the words of the header; each of them keeps the guards away from the next
  induction header generalizing start with
  | nil =>
    obtain ⟨piece, hto⟩ := toItem hscanned hitems
    have hmeans := (itemsFrom_split [] hitems).2.1
    obtain ⟨found, hfound⟩ := hlater (hto.scanned.name (hto.text ▸ hword)).2.1
    exact h.headerRevised_of_gap hto hshort
      (h.headerRevised_of_name hto hmeans hname hword hbefore hmarked hfound)
  | cons first header ih =>
    obtain ⟨piece, hto⟩ := toItem hscanned hitems
    have hwords : ∀ text ∈ "async" :: "*" :: ExportStatement.declarators,
        PlainText text.toList ∧ text.toList ∉ guards ∧ ((text = "let" ∨ text = "const") ∨
          (text ≠ "let" ∧ text ≠ "const") ∧ (text = "*" ∨ (Identifier.isName text.toList = true ∧
            text.toList ∉ "import".toList :: actedOn))) := by decide
    obtain ⟨hplain, hguard, hcases⟩ := hwords _ (hheader first List.mem_cons_self)
    have hbehind := (itemsFrom_split [] hitems).2.2.1
    have hlt := (itemsFrom_split _ hbehind).1
    have hle := hto.le
    have hlast := lastText?_take (itemsFrom_split [] hitems).2.1
    have hrest : HeaderRevised stream state stack
        (lastText? (stream.toPieces.take (first.id + 1))) (first.id + 1) := by
      refine ih (hto.scanned.plain (hto.text ▸ hplain)) hbehind
        (fun item hmem => hheader item (List.mem_cons_of_mem _ hmem)) (fun text hmem heq => ?_)
        fun j hj => hshort j (by omega)
      rw [hlast] at heq
      exact hguard (Option.some.inj heq ▸ hmem)
    rw [hlast] at hrest
    have hfirst := hshort first.id hle (by omega)
    refine h.headerRevised_of_gap hto (fun j hj hj' => hshort j hj (by omega)) ?_
    rcases hcases with hlet | ⟨hlong, hown⟩
    · exact h.headerRevised_of_short hto hfirst hrest hlet hbefore
    · exact h.headerRevised_of_own hto hfirst hrest hlong hown

end

end Accepted

end ScriptLink
