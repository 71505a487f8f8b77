import Mathlib.Data.List.Forall2
import ScriptLink.Proofs.Lookahead.Ending
import ScriptLink.Proofs.Quoting
import ScriptLink.Proofs.Rescan
import ScriptLink.Wrapper

/-!
# The text of a wrapper

The host runs a module as one text: lines that bind names, the body, and lines that assign exports.
Each of these is put together from texts that come from elsewhere, so it has to be shown that the
text falls into the tokens that were meant: no name runs into its neighbours, no path ends its quotes
early, and whatever the body ends with, the line break behind it is the end.

* **`Wanted`** — what is said of one token: all of it, or the text that a string holds.
* **`Reads.body`** — a script with a line break behind it, in front of more. By induction on the
  pieces of the script.
* **`Reads.link`**, **`Reads.assignment`** — one line before the body, one line behind it.
* **`wrapper_text_separates`** — the law.
-/

namespace ScriptLink

/-- What a token has to be: exactly this piece, or a string that holds a text. -/
inductive Wanted where
  | piece (piece : Piece)
  | string (text : String)

namespace Wanted

/-- The token is as wanted. -/
def Fits : Wanted → Piece → Prop
  | piece wanted, found => found = wanted
  | string text, found =>
    found.kind = .string ∧ Content.readText? (String.ofList found.text) = some text

def name (name : String) : Wanted := .piece ⟨.identifier, name.toList⟩

def bracket (mark : Char) : Wanted := .piece ⟨.bracket, [mark]⟩

def delimiter (mark : Char) : Wanted := .piece ⟨.delimiter, [mark]⟩

def equals : Wanted := .piece ⟨.operator, ['=']⟩

/-- What a wrapper writes for it. -/
def written : Wanted → Piece
  | piece wanted => wanted
  | string text => ⟨.string, (Content.quote text).toList⟩

@[simp] theorem written_name (text : String) : (name text).written = ⟨.identifier, text.toList⟩ := rfl

@[simp] theorem written_bracket (mark : Char) : (bracket mark).written = ⟨.bracket, [mark]⟩ := rfl

@[simp] theorem written_delimiter (mark : Char) :
    (delimiter mark).written = ⟨.delimiter, [mark]⟩ := rfl

@[simp] theorem written_equals : equals.written = ⟨.operator, ['=']⟩ := rfl

theorem fits_written (wanted : Wanted) : wanted.Fits wanted.written := by
  cases wanted with
  | piece wanted => rfl
  | string text =>
    refine ⟨rfl, ?_⟩
    unfold written
    dsimp only
    rw [String.ofList_toList, Content.readText?_quote]

end Wanted

/-- A text in brackets behind an object. -/
def Wanted.index (text : String) : List Wanted :=
  [.bracket '[', Wanted.string text, .bracket ']']

/-- The tokens of the line that binds a name. -/
def Link.tokens (importsName : String) (link : Link) : List Wanted :=
  [.name "var", .name link.name, .equals, .name importsName] ++ Wanted.index link.source ++
    (link.member.map Wanted.index).getD [] ++ [.delimiter ';']

/-- The tokens of the line that assigns an exported name. -/
def Export.tokens (exportsName : String) (item : Export) : List Wanted :=
  match item.localName with
  | none => []
  | some name =>
    [.name exportsName, .delimiter '.', .name item.name, .equals, .name name, .delimiter ';']

/-- The tokens that are no white space. -/
def TokenStream.visible (stream : TokenStream) : List Piece :=
  stream.toPieces.filter Piece.isVisible

/-- The name is read as one identifier. -/
def IsIdentifier (name : String) : Prop :=
  ∃ stream, tokenize name = .ok stream ∧ stream.toPieces = [⟨.identifier, name.toList⟩]

namespace Wrapper

/-- The text behind the header. -/
def code (wrapper : Wrapper) : String :=
  String.join (wrapper.links.map (Link.line wrapper.importsName)) ++ wrapper.body ++ "\n" ++
    String.join (wrapper.exports.map (Export.line wrapper.exportsName))

theorem render_eq (wrapper : Wrapper) : wrapper.render = wrapper.header ++ wrapper.code := by
  unfold render code
  simp only [String.append_assoc]

/-- The tokens of a wrapper, if those of its body are given. -/
def tokens (wrapper : Wrapper) (body : List Piece) : List Wanted :=
  wrapper.links.flatMap (Link.tokens wrapper.importsName) ++ body.map Wanted.piece ++
    wrapper.exports.flatMap (Export.tokens wrapper.exportsName)

end Wrapper

/-! ## Names and marks -/

theorem IsIdentifier.isName {name : String} (h : IsIdentifier name) :
    Identifier.isName name.toList = true := by
  obtain ⟨stream, hstream, hpieces⟩ := h
  have hfits := Context.forall_of_scan (fun kind text => kind ≠ .keyword ∧ kind.Fits text)
    Context.fits_of_step (toPieces_of_tokenize hstream)
  exact (hfits ⟨.identifier, name.toList⟩ (hpieces ▸ List.mem_singleton_self _)).2

theorem exists_tokenize {source : String} {found : List Piece} (h : Scanned .start found)
    (htext : Piece.texts found = source.toList) :
    ∃ stream, tokenize source = .ok stream ∧ stream.toPieces = found := by
  have hpieces : pieces source = .ok found := by
    unfold pieces
    rw [← htext]
    exact h.scan (.refl _) 0
  have hstream := tokenize_of_pieces hpieces
  exact ⟨_, hstream, Except.ok.inj ((toPieces_of_tokenize hstream).symm.trans hpieces)⟩

theorem isIdentifier_iff {name : String} :
    IsIdentifier name ↔ Identifier.isName name.toList = true := by
  refine ⟨IsIdentifier.isName, fun hname => ?_⟩
  cases hchars : name.toList with
  | nil =>
    rw [hchars] at hname
    exact absurd hname (by simp [Identifier.isName])
  | cons c tail =>
    rw [hchars] at hname
    obtain ⟨hstart, htail⟩ := Bool.and_eq_true_iff.mp hname
    have hscanned : Scanned .start [⟨.identifier, c :: tail⟩] :=
      .cons (Reads.step_word 0 hstart (List.all_eq_true.mp htail) .nil) .nil
    have htext : Piece.texts [⟨.identifier, c :: tail⟩] = name.toList := by
      rw [hchars, Piece.texts_cons, Piece.texts_nil, List.append_nil]
    obtain ⟨stream, hstream, hpieces⟩ := exists_tokenize hscanned htext
    exact ⟨stream, hstream, by rw [hpieces, hchars]⟩

theorem Identifier.ne_dot_of_isName {name : List Char} (h : isName name = true)
    (text : List Char) : Stops (· == '.') (name ++ text) := by
  cases name with
  | nil => exact absurd h (by simp [isName])
  | cons c tail =>
    refine .cons (beq_false_of_ne ?_)
    rintro rfl
    unfold isName at h
    exact absurd (Bool.and_eq_true_iff.mp h).1 (by decide)

namespace Reads

open Context

variable {context : Context} {stack : List Interpolation} {text : List Char} {found : List Piece}

theorem blank (h : Reads ⟨.code, stack⟩ text found) {c : Char} (hc : Unicode.isBlank c = true) :
    Reads ⟨.code, stack⟩ (c :: text) found :=
  h.blanks fun _ hmem => List.mem_singleton.mp hmem ▸ hc

/-- A token of one character that leaves the context alone. -/
theorem mark {c : Char} {kind : TokenKind} (h : Reads ⟨.code, stack⟩ text found)
    (hstep : Context.codeStep ⟨.code, stack⟩ 0 c text = .ok ⟨kind, [], ⟨.code, stack⟩⟩)
    (hvisible : Piece.isVisible ⟨kind, [c]⟩ = true) :
    Reads ⟨.code, stack⟩ (c :: text) (⟨kind, [c]⟩ :: found) := by
  have hfront := h.step (show Context.step ⟨.code, stack⟩ 0 c ([] ++ text) = _ from hstep)
  rwa [List.filter_cons_of_pos hvisible] at hfront

/-- A dot before what does not begin with another one. -/
theorem dot (h : Reads ⟨.code, stack⟩ text found) (hstops : Stops (· == '.') text) :
    Reads ⟨.code, stack⟩ ('.' :: text) (⟨.delimiter, ['.']⟩ :: found) := by
  have hsingle : ¬ (['.', '.', '.'].isPrefixOf ('.' :: text)) := by
    cases text with
    | nil => decide
    | cons c rest =>
      have hc : ('.' == c) = false := by
        rw [Bool.beq_comm]
        exact hstops c rest rfl
      simp [List.isPrefixOf, hc]
  refine h.mark ?_ rfl
  rw [codeStep_eq, show Lead.of '.' = .mark by decide]
  dsimp only
  rw [if_pos ⟨by decide, hsingle⟩]
  rfl

/-- An equals sign with blanks around it. -/
theorem equals (h : Reads ⟨.code, stack⟩ text found) :
    Reads ⟨.code, stack⟩ (' ' :: '=' :: ' ' :: text) (⟨.operator, ['=']⟩ :: found) := by
  have hafter : Reads ⟨.code, stack⟩ (' ' :: text) found := h.blank (by decide)
  exact (hafter.mark rfl rfl).blank (by decide)

/-- The end of a statement and of its line. -/
theorem semicolon (h : Reads ⟨.code, stack⟩ text found) :
    Reads ⟨.code, stack⟩ (';' :: '\n' :: text) (⟨.delimiter, [';']⟩ :: found) := by
  have hline : Reads ⟨.code, stack⟩ ('\n' :: text) found := h.blank (by decide)
  exact hline.mark rfl rfl

/-- A quoted text. -/
theorem quoted (h : Reads ⟨.code, stack⟩ text found) (value : String) :
    Reads ⟨.code, stack⟩ ((Content.quote value).toList ++ text)
      (⟨.string, (Content.quote value).toList⟩ :: found) := by
  have hquote : (Content.quote value).toList =
      '\x22' :: (value.toList.flatMap Content.quoteChar ++ ['\x22']) := String.toList_ofList
  have hstep : Context.step ⟨.code, stack⟩ 0 '\x22'
      (value.toList.flatMap Content.quoteChar ++ ['\x22'] ++ text) =
      .ok ⟨.string, value.toList.flatMap Content.quoteChar ++ ['\x22'], ⟨.code, stack⟩⟩ := by
    show Context.codeStep _ 0 '\x22' _ = _
    rw [codeStep_eq, show Lead.of '\x22' = .quote by decide, List.append_assoc,
      List.singleton_append, Quoted.body?_quoted]
    rfl
  rw [hquote]
  exact h.step hstep

/-- A quoted text in brackets. -/
theorem index (h : Reads ⟨.code, stack⟩ text found) (value : String) :
    Reads ⟨.code, stack⟩ ('[' :: ((Content.quote value).toList ++ ']' :: text))
      ((Wanted.index value).map Wanted.written ++ found) := by
  have hclose : Reads ⟨.code, stack⟩ (']' :: text) (⟨.bracket, [']']⟩ :: found) :=
    h.mark rfl rfl
  exact (hclose.quoted value).mark rfl rfl

/-! ## Lines -/

/-- A line that binds a name. -/
theorem link {link : Link} {importsName : String} (h : Reads ⟨.code, stack⟩ text found)
    (hname : IsIdentifier link.name) (himports : IsIdentifier importsName) :
    Reads ⟨.code, stack⟩ ((link.line importsName).toList ++ text)
      ((link.tokens importsName).map Wanted.written ++ found) := by
  obtain ⟨name, source, member⟩ := link
  have hend := h.semicolon
  have hmember : Reads ⟨.code, stack⟩
      (((member.map fun member => "[" ++ Content.quote member ++ "]").getD "").toList ++
        ';' :: '\n' :: text)
      (((member.map Wanted.index).getD []).map Wanted.written ++
        ⟨.delimiter, [';']⟩ :: found) := by
    cases member with
    | none => exact hend
    | some member =>
      have htext : ("[" ++ Content.quote member ++ "]").toList =
          '[' :: ((Content.quote member).toList ++ [']']) := by simp
      show Reads ⟨.code, stack⟩ (("[" ++ Content.quote member ++ "]").toList ++ _) _
      rw [htext, List.cons_append, List.append_assoc]
      exact hend.index member
  have hindex := hmember.index source
  have hobject := hindex.word himports.isName (.cons (by decide))
  have hlocal := hobject.equals.word hname.isName (.cons (by decide))
  have hvar := (hlocal.blank (by decide : Unicode.isBlank ' ' = true)).word
    (by decide : Identifier.isName "var".toList = true) (.cons (by decide))
  simpa [Link.line, Link.tokens] using hvar

/-- A line that assigns an exported name. -/
theorem assignment {item : Export} {exportsName : String} (h : Reads ⟨.code, stack⟩ text found)
    (hexports : IsIdentifier exportsName)
    (hnames : ∀ name, item.localName = some name → IsIdentifier name ∧ IsIdentifier item.name) :
    Reads ⟨.code, stack⟩ ((item.line exportsName).toList ++ text)
      ((item.tokens exportsName).map Wanted.written ++ found) := by
  unfold Export.line Export.tokens
  cases hlocal : item.localName with
  | none => exact h
  | some name =>
    obtain ⟨hname, hmember⟩ := hnames name hlocal
    have htarget := h.semicolon.word hname.isName (.cons (by decide))
    have hassigned := htarget.equals.word hmember.isName (.cons (by decide))
    have hobject := (hassigned.dot (Identifier.ne_dot_of_isName hmember.isName _)).word
      hexports.isName (.cons (by decide))
    simpa using hobject

/-- Lines in front, one for each item of a list. -/
theorem lines {α : Type} {line : α → String} {tokens : α → List Wanted} {items : List α}
    (h : Reads ⟨.code, stack⟩ text found)
    (hline : ∀ item ∈ items, ∀ {text found}, Reads ⟨.code, stack⟩ text found →
      Reads ⟨.code, stack⟩ ((line item).toList ++ text) ((tokens item).map Wanted.written ++ found)) :
    Reads ⟨.code, stack⟩ ((String.join (items.map line)).toList ++ text)
      ((items.flatMap tokens).map Wanted.written ++ found) := by
  induction items with
  | nil => exact h
  | cons item rest ih =>
    have hrest := ih fun other hmem => hline other (List.mem_cons_of_mem _ hmem)
    have hall := hline item List.mem_cons_self hrest
    rw [List.map_cons, String.join_cons, String.toList_append, List.flatMap_cons, List.map_append,
      List.append_assoc, List.append_assoc]
    exact hall

/-! ## The body -/

/-- White space leaves the context alone, and there is none in template text. -/
theorem of_whitespace_step {next : Context} {position : Nat} {c : Char} {rest tail : List Char}
    (h : context.step position c rest = .ok ⟨.whitespace, tail, next⟩) :
    next = context ∧ context.mode = .code := by
  unfold Context.step at h
  split at h
  · next hmode =>
    rcases trivia_cases h rfl with ⟨-, heq⟩ | ⟨-, later, -, heq⟩ | ⟨-, body, text, kind, -, -, heq⟩
    · exact ⟨(Step.mk.inj heq).2.2, hmode⟩
    · exact ⟨(Step.mk.inj heq).2.2, hmode⟩
    · exact ⟨(Step.mk.inj heq).2.2, hmode⟩
  · rcases templateStep_cases h with ⟨_, -, heq⟩ | ⟨_, _, -, heq⟩
    · exact absurd (Step.mk.inj heq).1 (by simp)
    · exact absurd (Step.mk.inj heq).1 (by simp)

/-- **A script with a line break behind it** is read as if it stood alone, and so is the rest. -/
theorem body {pieces : List Piece} (hpieces : Scanned context pieces)
    (h : Reads .start text found) :
    Reads context (Piece.texts pieces ++ '\n' :: text)
      (pieces.filter Piece.isVisible ++ found) := by
  induction hpieces with
  | nil => exact h.blank (by decide)
  | @cons context next position c tail kind rest hstep hrest ih =>
    by_cases hend : kind = .whitespace ∧ rest = []
    · -- the last white space becomes one with the line break
      obtain ⟨rfl, rfl⟩ := hend
      cases hrest with
      | nil =>
        obtain ⟨hcontext, -⟩ := of_whitespace_step hstep
        have hblanks : ∀ d ∈ c :: tail, Unicode.isBlank d = true := (fits_of_step hstep).2
        subst hcontext
        have hline : Reads .start ('\n' :: text) found := h.blank (by decide)
        rw [Piece.texts_cons, Piece.texts_nil, List.append_nil]
        exact hline.blanks hblanks
    · have hblank : kind = .whitespace → tail ≠ tail ++ Piece.texts rest := by
        intro hkind hall
        have htexts : Piece.texts rest = [] := by simpa using hall
        cases hrest with
        | nil => exact hend ⟨hkind, rfl⟩
        | cons _ _ => exact absurd htexts (by simp)
      have hfront := step_lineBreak (by decide : RegExp.isLineBreak '\n' = true) text hstep hblank
      rw [List.append_assoc] at hfront
      have hall := ih.step hfront
      rw [← List.append_assoc ([_].filter _), ← List.filter_append] at hall
      rw [Piece.texts_cons, List.append_assoc]
      exact hall

end Reads

/-! ## The law -/

theorem tokenize_of_reads {source : String} {found : List Piece}
    (h : Reads .start source.toList found) :
    ∃ stream, tokenize source = .ok stream ∧ stream.visible = found := by
  obtain ⟨read, hread, htext, rfl⟩ := h
  obtain ⟨stream, hstream, hsame⟩ := exists_tokenize hread htext
  exact ⟨stream, hstream, congrArg (List.filter Piece.isVisible) hsame⟩

/-- **The text of a wrapper separates.** Take a wrapper whose names are read as identifiers, and whose
body is taken apart by itself; its paths and members can be any texts. Then the text behind the header
is taken apart too, and besides white space its tokens are, in order: for each link the declaration of
its name, read from the table under its path and member; the tokens of the body; and for each named
export the assignment to its member. The string of a path or a member holds just that text. -/
theorem wrapper_text_separates {wrapper : Wrapper} {body : TokenStream}
    (hexports : IsIdentifier wrapper.exportsName) (himports : IsIdentifier wrapper.importsName)
    (hlinks : ∀ link ∈ wrapper.links, IsIdentifier link.name)
    (hitems : ∀ item ∈ wrapper.exports, ∀ name, item.localName = some name →
      IsIdentifier name ∧ IsIdentifier item.name)
    (hbody : tokenize wrapper.body = .ok body) :
    wrapper.render = wrapper.header ++ wrapper.code ∧
      ∃ stream, tokenize wrapper.code = .ok stream ∧
        List.Forall₂ Wanted.Fits (wrapper.tokens body.visible) stream.visible := by
  refine ⟨wrapper.render_eq, ?_⟩
  have hpieces := toPieces_of_tokenize hbody
  have hscanned := scanned_of_scan hpieces
  have htexts : Piece.texts body.toPieces = wrapper.body.toList := (pieces_eq hpieces).1
  -- from the end of the text to its beginning
  have hassignments : Reads .start
      ((String.join (wrapper.exports.map (Export.line wrapper.exportsName))).toList ++ [])
      ((wrapper.exports.flatMap (Export.tokens wrapper.exportsName)).map Wanted.written ++ []) :=
    Reads.nil.lines fun item hmem _ _ h => h.assignment hexports (hitems item hmem)
  have hbodied := Reads.body hscanned hassignments
  have hlinked : Reads .start
      ((String.join (wrapper.links.map (Link.line wrapper.importsName))).toList ++ _)
      ((wrapper.links.flatMap (Link.tokens wrapper.importsName)).map Wanted.written ++ _) :=
    hbodied.lines fun link hmem _ _ h => h.link (hlinks link hmem) himports
  have hcode : Reads .start wrapper.code.toList
      ((wrapper.tokens body.visible).map Wanted.written) := by
    rw [htexts] at hlinked
    simpa [Wrapper.code, Wrapper.tokens, TokenStream.visible, Function.comp_def, Wanted.written]
      using hlinked
  obtain ⟨stream, hstream, hvisible⟩ := tokenize_of_reads hcode
  refine ⟨stream, hstream, ?_⟩
  rw [hvisible, List.forall₂_map_right_iff, List.forall₂_same]
  exact fun wanted _ => wanted.fits_written

/-- A wrapper with awkward parts: quotes, backslashes and controls in its paths, and a body that ends
in a comment. -/
def awkwardWrapper : Wrapper where
  path := "a.js"
  links := [⟨"x", "\x22];\\\n\x01", some "'\t//"⟩, ⟨"y", "", none⟩]
  body := "/[/]/.test(x) // the end"
  exports := [.named "x" (some "default"), .default]
  exportsName := "exports"
  importsName := "__imports__"

/-- The awkward parts stay apart. -/
theorem awkward_parts_separate :
    ∃ body stream, tokenize awkwardWrapper.body = .ok body ∧
      tokenize awkwardWrapper.code = .ok stream ∧
      List.Forall₂ Wanted.Fits (awkwardWrapper.tokens body.visible) stream.visible := by
  have hbody : (tokenize awkwardWrapper.body).toOption.isSome = true := by decide +kernel
  obtain ⟨body, hbody⟩ := Option.isSome_iff_exists.mp hbody
  replace hbody := eq_ok_of_toOption hbody
  have hlinks : ∀ link ∈ awkwardWrapper.links, IsIdentifier link.name := by
    simp only [isIdentifier_iff]
    decide
  have hitems : ∀ item ∈ awkwardWrapper.exports, ∀ name, item.localName = some name →
      IsIdentifier name ∧ IsIdentifier item.name := by
    intro item hmem name hlocal
    rcases List.mem_cons.mp hmem with rfl | hmem
    · obtain rfl := Option.some.inj hlocal
      exact ⟨isIdentifier_iff.mpr (by decide), isIdentifier_iff.mpr (by decide)⟩
    · obtain rfl := List.mem_singleton.mp hmem
      exact absurd hlocal (by simp [Export.localName])
  obtain ⟨-, stream, hstream, hfits⟩ := wrapper_text_separates
    (isIdentifier_iff.mpr (by decide)) (isIdentifier_iff.mpr (by decide)) hlinks hitems hbody
  exact ⟨body, stream, hbody, hstream, hfits⟩

end ScriptLink
