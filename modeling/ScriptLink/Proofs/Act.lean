import ScriptLink.Proofs.ReservedWord
import ScriptLink.Proofs.Statement
import ScriptLink.Rewrite

/-!
# What a keyword makes the pass do

A visit of the pass takes one of five courses, and which one it takes is decided on the stream as it
was: replacements are written, but never read.

* **`TokenStream.Same`** — streams that differ in their replacements at most. Everything a statement
  is read from is the same in them.
* **`TokenStream.Removal`** — the statements that are removed, from the keyword through the last
  token.
* **`Act`** — the courses, and `Act.writes` what each of them writes where. No act writes before the
  keyword it belongs to (`Act.le_of_writes`).
* **`TokenStream.Does`** — which course a keyword takes, read off the tokens behind it.
* **`Rewriting.Course`** — what a visit leads to, as the readers decide (`course_of_visit`).
* **`Rewriting.visit_cases`** — a visit that succeeds passes a token over, or does what its act
  says.
-/

namespace ScriptLink

/-! ## Streams up to replacements -/

/-- The token without its replacement. -/
def Token.unwritten (token : Token) : Token := { token with replacement := none }

namespace TokenStream

variable {stream other : TokenStream} {id j : Nat} {text : String}

/-- The streams differ in their replacements at most. -/
structure Same (stream other : TokenStream) : Prop where
  size : stream.size = other.size
  tokens : ∀ j, (stream.get? j).map Token.unwritten = (other.get? j).map Token.unwritten

/-- What is written in place of a token, if anything is. -/
def replacement? (stream : TokenStream) (id : Nat) : Option String :=
  (stream.get? id).bind Token.replacement

/-- What a token contributes to the output. -/
def written (stream : TokenStream) (id : Nat) : String :=
  (stream.replacement? id).getD (stream.lexeme id)

theorem get?_replace (stream : TokenStream) (id j : Nat) (text : String) :
    (stream.replace id text).get? j =
      if j = id then (stream.get? j).map fun token => { token with replacement := some text }
      else stream.get? j := by
  unfold replace get?
  rw [Array.getElem?_modify]
  by_cases h : j = id
  · rw [if_pos h, if_pos h.symm]
  · rw [if_neg h, if_neg (Ne.symm h)]

theorem replacement?_replace (h : j < stream.size) :
    (stream.replace id text).replacement? j =
      if j = id then some text else stream.replacement? j := by
  obtain ⟨token, htoken⟩ : ∃ token, stream.get? j = some token := ⟨_, Array.getElem?_eq_getElem h⟩
  unfold replacement?
  rw [get?_replace, htoken]
  split <;> rfl

namespace Same

theorem refl (stream : TokenStream) : stream.Same stream := ⟨rfl, fun _ => rfl⟩

theorem trans {third : TokenStream} (h : stream.Same other) (h' : other.Same third) :
    stream.Same third :=
  ⟨h.size.trans h'.size, fun j => (h.tokens j).trans (h'.tokens j)⟩

theorem replace (stream : TokenStream) (id : Nat) (text : String) :
    (stream.replace id text).Same stream := by
  refine ⟨Array.size_modify, fun j => ?_⟩
  rw [get?_replace]
  split
  · rw [Option.map_map]
    rfl
  · rfl

theorem erase (stream : TokenStream) (first last : Nat) :
    (stream.erase first last).Same stream := by
  unfold TokenStream.erase
  generalize List.range' first (last + 1 - first) = ids
  induction ids generalizing stream with
  | nil => exact refl stream
  | cons id rest ih => exact (ih (stream.replace id "")).trans (replace stream id "")

/-- A view that does not look at the replacement is the same. -/
theorem map {α : Type} (h : stream.Same other) (view : Token → α)
    (hview : ∀ token : Token, view token.unwritten = view token) (j : Nat) :
    (stream.get? j).map view = (other.get? j).map view := by
  have hmap := congrArg (Option.map view) (h.tokens j)
  simpa only [Option.map_map, Function.comp_def, hview] using hmap

theorem kind? (h : stream.Same other) : stream.kind? = other.kind? :=
  funext fun j => h.map _ (fun _ => rfl) j

theorem lexeme (h : stream.Same other) : stream.lexeme = other.lexeme :=
  funext fun j => congrArg (Option.getD · "") (h.map _ (fun _ => rfl) j)

theorem prev (h : stream.Same other) : stream.prev = other.prev :=
  funext fun j => bind_eq_of_map_eq (h.map Token.prev (fun _ => rfl) j)

theorem next (h : stream.Same other) : stream.next = other.next :=
  funext fun j => bind_eq_of_map_eq (h.map Token.next (fun _ => rfl) j)

theorem offset (h : stream.Same other) : stream.offset = other.offset :=
  funext fun j => congrArg (Option.getD · 0) (h.map _ (fun _ => rfl) j)

theorem item? (h : stream.Same other) : stream.item? = other.item? :=
  funext fun j => h.map _ (fun _ => rfl) j

theorem itemsAfter (h : stream.Same other) : stream.itemsAfter = other.itemsAfter := by
  have hfollowing : ∀ count id, stream.following count id = other.following count id := by
    intro count
    induction count with
    | zero => exact fun _ => rfl
    | succ count ih =>
      intro id
      unfold following
      rw [h.next, h.item?]
      simp only [ih]
  funext id
  unfold TokenStream.itemsAfter
  rw [h.size, hfollowing]

end Same

theorem replacement?_erase (h : j < stream.size) (first last : Nat) :
    (stream.erase first last).replacement? j =
      if first ≤ j ∧ j ≤ last then some "" else stream.replacement? j := by
  have hfold : ∀ (ids : List Nat) (stream : TokenStream), j < stream.size →
      (ids.foldl (fun stream id => stream.replace id "") stream).replacement? j =
        if j ∈ ids then some "" else stream.replacement? j := by
    intro ids
    induction ids with
    | nil => exact fun _ _ => (if_neg List.not_mem_nil).symm
    | cons id rest ih =>
      intro stream hj
      rw [List.foldl_cons, ih _ (by rw [(Same.replace stream id "").size]; exact hj),
        replacement?_replace hj]
      by_cases hrest : j ∈ rest
      · simp [hrest]
      · simp [hrest]
  unfold erase
  rw [hfold _ _ h]
  have hmem : j ∈ List.range' first (last + 1 - first) ↔ first ≤ j ∧ j ≤ last := by
    rw [List.mem_range'_1]
    omega
  simp only [hmem]

end TokenStream

/-! ## Acts -/

/-- What a visit of the pass can do. -/
inductive Act where
  /-- nothing -/
  | idle
  /-- `let` and `const` become `var` -/
  | shorten
  /-- the statement through `last` is removed -/
  | remove (last : Nat)
  /-- the keyword of an export and `default` go, and the target becomes an assignment -/
  | assign (keyword : Nat) (target : Item)
  /-- the keyword of an export goes, and the declared name is marked -/
  | declare (name : Item)
  deriving DecidableEq

namespace Act

/-- The assignment to the default member that ends with `target`. -/
def assigned (exportsName target : String) : String :=
  exportsName ++ "." ++ defaultName ++ " = " ++ target

/-- A declared name and the mark behind it. -/
def marked (name : String) : String := name ++ " " ++ Rewriting.exportedMark

/-- What the act of the keyword `id` writes in place of the token `j`. -/
def writes (exportsName : String) (id : Nat) : Act → Nat → Option String
  | idle, _ => none
  | shorten, j => if j = id then some "var" else none
  | remove last, j => if id ≤ j ∧ j ≤ last then some "" else none
  | assign keyword target, j =>
    if j = target.id then some (assigned exportsName target.text)
    else if j = keyword then some "" else if j = id then some "" else none
  | declare name, j =>
    if j = name.id then some (marked name.text) else if j = id then some "" else none

/-- From where on tokens are looked at again. -/
def resume (before : Nat) : Act → Nat
  | remove last => last + 1
  | _ => before

end Act

namespace TokenStream

/-! ## Statements that are removed -/

/-- The token is a keyword and reads `word`. -/
structure IsKeyword (stream : TokenStream) (id : Nat) (word : String) : Prop where
  kind : stream.kind? id = some .keyword
  reads : stream.lexeme id = word

/-- The next token opens a call or selects a property: `import` is an expression there. -/
def IsDynamic (stream : TokenStream) (id : Nat) : Prop :=
  ∃ next rest, stream.itemsFrom (id + 1) = next :: rest ∧ (next.text = "(" ∨ next.text = ".")

/-- A statement that is removed, from its keyword through its last token: an import through its
path, or a list of exports through the closing brace, with the semicolon directly behind it. -/
inductive Removal (stream : TokenStream) (first : Nat) : Nat → Prop where
  | importing {clause rest : List Item} {path : Item} (hword : stream.IsKeyword first "import")
      (hitems : stream.itemsFrom (first + 1) = clause ++ path :: rest) (hclause : Clause clause)
      (hpath : path.kind = .string) : stream.Removal first (Item.endOf path.id rest)
  | exporting {entries rest : List Item} {opened closed : Item}
      (hword : stream.IsKeyword first "export")
      (hitems : stream.itemsFrom (first + 1) = opened :: (entries ++ closed :: rest))
      (hopened : opened.text = "\x7b") (hentries : ∀ item ∈ entries, item.IsEntry)
      (hclosed : closed.text = "\x7d") : stream.Removal first (Item.endOf closed.id rest)

/-- What a keyword makes the pass do. -/
inductive Does (stream : TokenStream) (id : Nat) : Act → Prop where
  | shorten (hword : stream.IsKeyword id "let" ∨ stream.IsKeyword id "const") :
      stream.Does id .shorten
  | remove {last : Nat} (hremoval : stream.Removal id last) : stream.Does id (.remove last)
  | assign {keyword target : Item} {rest : List Item} (hword : stream.IsKeyword id "export")
      (hitems : stream.itemsFrom (id + 1) = keyword :: target :: rest)
      (hdefault : keyword.text = defaultName) : stream.Does id (.assign keyword.id target)
  | declare {header rest : List Item} {name : Item} (hword : stream.IsKeyword id "export")
      (hitems : stream.itemsFrom (id + 1) = header ++ name :: rest) (hheader : IsHeader header)
      (hname : name.kind = .identifier) : stream.Does id (.declare name)
  | idle (hother : ∀ word ∈ ["let", "const", "export"], ¬ stream.IsKeyword id word)
      (himport : stream.IsKeyword id "import" → stream.IsDynamic id) : stream.Does id .idle

end TokenStream

namespace Rewriting

variable {exportsName : String} {state next : Rewriting} {stream : TokenStream} {id : Nat}
  {act : Act}

/-- The visit does what the act of the keyword `id` says. -/
structure Performs (exportsName : String) (id : Nat) (act : Act) (state next : Rewriting) :
    Prop where
  same : next.stream.Same state.stream
  replacement : ∀ j, j < state.stream.size → next.stream.replacement? j =
    (act.writes exportsName id j).or (state.stream.replacement? j)
  resume : next.resume = act.resume state.resume
  records : act = .idle ∨ act = .shorten →
    next.imports = state.imports ∧ next.exports = state.exports

theorem or_ite (condition : Prop) [Decidable condition] (text : String)
    (other old : Option String) : (if condition then some text else other).or old =
      if condition then some text else other.or old := by
  split <;> rfl

theorem performs_idle (state : Rewriting) : Performs exportsName id .idle state state where
  same := .refl _
  replacement _ _ := rfl
  resume := rfl
  records _ := ⟨rfl, rfl⟩

theorem performs_shorten (state : Rewriting) : Performs exportsName id .shorten state
    { state with stream := state.stream.replace id "var" } where
  same := .replace _ _ _
  replacement j hj := by
    rw [TokenStream.replacement?_replace hj]
    simp only [Act.writes, or_ite, Option.none_or]
  resume := rfl
  records _ := ⟨rfl, rfl⟩

theorem performs_removeImport (state : Rewriting) (statement : ImportStatement) :
    Performs exportsName id (.remove statement.last) state (state.removeImport id statement) where
  same := .erase _ _ _
  replacement j hj := by
    show (state.stream.erase id statement.last).replacement? j = _
    rw [TokenStream.replacement?_erase hj]
    simp only [Act.writes, or_ite, Option.none_or]
  resume := rfl
  records h := by simp at h

/-- The act of an export statement. -/
def actOf : ExportStatement → Act
  | .default keyword target => .assign keyword target
  | .clause _ last => .remove last
  | .declaration name => .declare name

theorem performs_applyExport (state : Rewriting) (statement : ExportStatement) :
    Performs exportsName id (actOf statement) state
      (state.applyExport exportsName id statement) := by
  cases statement with
  | default keyword target =>
    refine ⟨((TokenStream.Same.replace _ _ _).trans (.replace _ _ _)).trans (.replace _ _ _),
      fun j hj => ?_, rfl, fun h => by simp [actOf] at h⟩
    show (((state.stream.replace id "").replace keyword "").replace target.id _).replacement? j = _
    have hsame : (state.stream.replace id "").Same state.stream := .replace _ _ _
    have hsame' : ((state.stream.replace id "").replace keyword "").Same state.stream :=
      (TokenStream.Same.replace _ _ _).trans hsame
    rw [TokenStream.replacement?_replace (by rw [hsame'.size]; exact hj),
      TokenStream.replacement?_replace (by rw [hsame.size]; exact hj),
      TokenStream.replacement?_replace hj]
    simp only [actOf, Act.writes, Act.assigned, or_ite, Option.none_or]
  | clause specifiers last =>
    refine ⟨.erase _ _ _, fun j hj => ?_, rfl, fun h => by simp [actOf] at h⟩
    show (state.stream.erase id last).replacement? j = _
    rw [TokenStream.replacement?_erase hj]
    simp only [actOf, Act.writes, or_ite, Option.none_or]
  | declaration name =>
    refine ⟨(TokenStream.Same.replace _ _ _).trans (.replace _ _ _), fun j hj => ?_, rfl,
      fun h => by simp [actOf] at h⟩
    show ((state.stream.replace id "").replace name.id _).replacement? j = _
    have hsame : (state.stream.replace id "").Same state.stream := .replace _ _ _
    rw [TokenStream.replacement?_replace (by rw [hsame.size]; exact hj),
      TokenStream.replacement?_replace hj]
    simp only [actOf, Act.writes, Act.marked, or_ite, Option.none_or]

/-- The parts of an export statement are what its act asks for. -/
theorem does_actOf {statement : ExportStatement} (hword : stream.IsKeyword id "export")
    (h : ExportStatement.Splits (stream.itemsFrom (id + 1)) statement) :
    stream.Does id (actOf statement) := by
  cases statement with
  | default keyword target =>
    obtain ⟨first, rest, hitems, hdefault, rfl⟩ := h
    exact .assign hword hitems hdefault
  | clause specifiers last =>
    obtain ⟨opened, entries, closed, rest, hitems, hopened, hentries, hclosed, rfl⟩ := h
    exact .remove (.exporting hword hitems hopened hentries hclosed)
  | declaration name =>
    obtain ⟨header, rest, hitems, hheader, hname⟩ := h
    exact .declare hword hitems hheader hname

/-- What a visit of the token `id` leads to: the reader of its keyword decides, on the stream as it
was. -/
inductive Course (exportsName : String) (stream : TokenStream) (state : Rewriting) (id : Nat) :
    Rewriting → Prop where
  | shorten (hword : stream.IsKeyword id "let" ∨ stream.IsKeyword id "const") :
      Course exportsName stream state id { state with stream := state.stream.replace id "var" }
  | exporting {statement : ExportStatement} (hword : stream.IsKeyword id "export")
      (hreads : exportStatement (stream.offset id) (stream.itemsFrom (id + 1)) = .ok statement) :
      Course exportsName stream state id (state.applyExport exportsName id statement)
  | importing {statement : ImportStatement} (hword : stream.IsKeyword id "import")
      (hreads : importStatement (stream.offset id) (stream.itemsFrom (id + 1)) =
        .ok (some statement)) :
      Course exportsName stream state id (state.removeImport id statement)
  | dynamic (hword : stream.IsKeyword id "import")
      (hreads : importStatement (stream.offset id) (stream.itemsFrom (id + 1)) = .ok none) :
      Course exportsName stream state id state
  | other (hother : ∀ word ∈ ["let", "const", "export", "import"], ¬ stream.IsKeyword id word) :
      Course exportsName stream state id state

/-- **The course of a visit** of a token that is not passed over. -/
theorem course_of_visit (hlinked : stream.Linked) (hid : id < stream.size)
    (hsame : state.stream.Same stream) (hlooked : state.resume ≤ id)
    (h : visit exportsName state id = .ok next) : Course exportsName stream state id next := by
  unfold visit at h
  rw [if_neg (Nat.not_lt_of_le hlooked), hsame.kind?] at h
  split at h
  · next hkind =>
    unfold visitKeyword at h
    rw [hsame.lexeme, hsame.offset, hsame.itemsAfter, TokenStream.itemsAfter_eq hlinked hid] at h
    dsimp only at h
    split at h
    · next hshort =>
      obtain rfl := Except.ok.inj h
      exact .shorten (hshort.imp (⟨hkind, ·⟩) (⟨hkind, ·⟩))
    · next hlong =>
      split at h
      · next hexport =>
        obtain ⟨statement, hreads, rfl⟩ := exists_of_map_eq_ok h
        exact .exporting ⟨hkind, hexport⟩ hreads
      · next hexport =>
        split at h
        · next himport =>
          obtain ⟨found, hreads, rfl⟩ := exists_of_map_eq_ok h
          cases found with
          | none => exact .dynamic ⟨hkind, himport⟩ hreads
          | some statement => exact .importing ⟨hkind, himport⟩ hreads
        · next himport =>
          obtain rfl := Except.ok.inj h
          refine .other fun word hword hkeyword => ?_
          rw [← hkeyword.reads] at hword
          simp only [List.mem_cons, List.not_mem_nil, or_false] at hword
          rcases hword with hlet | hconst | hexports | himports
          · exact hlong (.inl hlet)
          · exact hlong (.inr hconst)
          · exact hexport hexports
          · exact himport himports
  · next hkind =>
    obtain rfl := Except.ok.inj h
    exact .other fun _ _ hword => hkind hword.kind

/-- Each course is what an act says. -/
theorem Course.exists_act (h : Course exportsName stream state id next) :
    ∃ act, stream.Does id act ∧ Performs exportsName id act state next := by
  cases h with
  | shorten hword => exact ⟨.shorten, .shorten hword, performs_shorten state⟩
  | exporting hword hreads =>
    exact ⟨_, does_actOf hword (exportStatement_split hreads), performs_applyExport state _⟩
  | @importing statement hword hreads =>
    obtain ⟨clause, path, rest, hitems, hclause, hpath, hlast⟩ := importStatement_split hreads
    refine ⟨.remove statement.last, .remove ?_, performs_removeImport state statement⟩
    rw [hlast]
    exact .importing hword hitems hclause hpath
  | dynamic hword hreads =>
    refine ⟨.idle, .idle (fun word hmem hother => ?_) fun _ => importStatement_split hreads,
      performs_idle state⟩
    rw [← hother.reads, hword.reads] at hmem
    exact absurd hmem (by decide)
  | other hother =>
    refine ⟨.idle, .idle (fun word hmem => ?_) fun hword => ?_, performs_idle state⟩
    · exact hother word (List.mem_append_left ["import"] hmem)
    · exact absurd hword (hother "import" (by simp))

/-- **What a visit does**: it passes over a token of a removed statement, or performs the act that
the token asks for. -/
theorem visit_cases (hlinked : stream.Linked) (hid : id < stream.size)
    (hsame : state.stream.Same stream) (h : visit exportsName state id = .ok next) :
    (id < state.resume ∧ next = state) ∨
      (state.resume ≤ id ∧ ∃ act, stream.Does id act ∧ Performs exportsName id act state next) := by
  rcases Nat.lt_or_ge id state.resume with hskipped | hlooked
  · unfold visit at h
    rw [if_pos hskipped] at h
    exact .inl ⟨hskipped, (Except.ok.inj h).symm⟩
  · exact .inr ⟨hlooked, (course_of_visit hlinked hid hsame hlooked h).exists_act⟩

end Rewriting

end ScriptLink
