import ScriptLink.Proofs.Lookahead.Ending
import ScriptLink.Proofs.Shape

/-!
# Scripts with a line break between them

Two scripts that are put behind each other on lines of their own are taken apart as if each stood
alone. The first one does not notice, since a line break ends it as the end of the text would. The
second one stands further on in the text, and this shows in the places that are noted, in nothing
else.

* **`Context.step_shift`**, **`Context.scan_shift`** — the scanner at another place of the text.
  What it finds is the same, and an error is reported further on.
* **`Context.scan_lineBreak`** — the scan of a script with a line break and more behind it. By
  induction on the scan of the script alone.
* **`tokenize_across_lineBreak`** — the law.
-/

namespace ScriptLink

/-! ## Another place of the text -/

/-- The span of the same text, `n` bytes further on. -/
def Span.shift (n : Nat) (span : Span) : Span := ⟨span.start + n, span.stop + n⟩

/-- The mark of the same piece, `n` bytes further on. -/
def Mark.shift (n : Nat) (mark : Mark) : Mark := ⟨mark.kind, mark.span.shift n⟩

/-- The same error, `n` bytes further on. -/
def Unterminated.shift (n : Nat) (error : Unterminated) : Unterminated :=
  ⟨error.literal, error.offset + n⟩

def Interpolation.shift (n : Nat) (interpolation : Interpolation) : Interpolation :=
  ⟨interpolation.depth, interpolation.opened + n⟩

def Mode.shift (n : Nat) : Mode → Mode
  | .code => .code
  | .template opened => .template (opened + n)

/-- The context that remembers the same back-ticks, `n` bytes further on. -/
def Context.shift (n : Nat) (context : Context) : Context :=
  ⟨context.mode.shift n, context.interpolations.map (·.shift n)⟩

def Step.shift (n : Nat) (step : Step) : Step := ⟨step.kind, step.tail, step.next.shift n⟩

namespace Context

/-- An answer of the scanner, `n` bytes further on. -/
def shiftAnswer (n : Nat) : Except Unterminated Step → Except Unterminated Step
  | .error error => .error (error.shift n)
  | .ok step => .ok (step.shift n)

variable {context : Context} {position : Nat} {c : Char} {rest : List Char}

theorem openBrace_shift (n : Nat) (context : Context) :
    (context.shift n).openBrace = context.openBrace.shift n := by
  obtain ⟨mode, stack⟩ := context
  cases stack with
  | nil => rfl
  | cons top outer => rfl

theorem closeBrace_shift (n : Nat) (context : Context) :
    (context.shift n).closeBrace = context.closeBrace.shift n := by
  obtain ⟨mode, stack⟩ := context
  cases stack with
  | nil => rfl
  | cons top outer =>
    show (if top.depth - 1 = 0 then _ else _) = (ite (top.depth - 1 = 0) _ _ : Context).shift n
    split
    · rfl
    · rfl

theorem afterSegment_shift (n opened : Nat) (context : Context) (segment : Template.Segment) :
    (context.shift n).afterSegment (opened + n) segment =
      (context.afterSegment opened segment).shift n := by
  obtain ⟨text, closes⟩ := segment
  cases closes with
  | false => rfl
  | true => rfl

theorem operatorStep_shift (n : Nat) (context : Context) (c : Char) (rest : List Char) :
    (context.shift n).operatorStep c rest = (context.operatorStep c rest).shift n := by
  unfold operatorStep
  split
  · rfl
  · rfl

theorem slashStep_shift (n position : Nat) (context : Context) (rest : List Char) :
    (context.shift n).slashStep (position + n) rest =
      shiftAnswer n (context.slashStep position rest) := by
  unfold slashStep
  split
  · rfl
  · dsimp only
    split
    · rfl
    · rfl
  · split
    · rfl
    · rw [operatorStep_shift]
      rfl

theorem codeStep_shift (n position : Nat) (context : Context) (c : Char) (rest : List Char) :
    (context.shift n).codeStep (position + n) c rest =
      shiftAnswer n (context.codeStep position c rest) := by
  rw [codeStep_eq, codeStep_eq]
  cases Lead.of c with
  | openBrace =>
    dsimp only
    rw [openBrace_shift]
    rfl
  | closeBrace =>
    dsimp only
    rw [closeBrace_shift]
    rfl
  | bracket | word | blank => rfl
  | tick =>
    dsimp only
    split
    · rw [afterSegment_shift]
      rfl
    · rfl
  | quote =>
    dsimp only
    split
    · rfl
    · rfl
  | slash => exact slashStep_shift n position context rest
  | digit =>
    dsimp only
    split
    · rfl
    · rfl
  | mark =>
    dsimp only
    split
    · rfl
    · rw [operatorStep_shift]
      rfl

theorem templateStep_shift (n opened : Nat) (context : Context) (c : Char) (rest : List Char) :
    (context.shift n).templateStep (opened + n) c rest =
      shiftAnswer n (context.templateStep opened c rest) := by
  unfold templateStep
  split
  · rfl
  · rfl
  · rw [afterSegment_shift]
    rfl

/-- **A step at another place of the text** takes the same piece. -/
theorem step_shift (n position : Nat) (context : Context) (c : Char) (rest : List Char) :
    (context.shift n).step (position + n) c rest =
      shiftAnswer n (context.step position c rest) := by
  obtain ⟨mode, stack⟩ := context
  cases mode with
  | code => exact codeStep_shift n position ⟨.code, stack⟩ c rest
  | template opened => exact templateStep_shift n opened ⟨.template opened, stack⟩ c rest

theorem finish_shift (n : Nat) (context : Context) :
    (context.shift n).finish = context.finish.mapError (·.shift n) := by
  obtain ⟨mode, stack⟩ := context
  cases mode with
  | template opened => rfl
  | code =>
    cases stack with
    | nil => rfl
    | cons top outer => rfl

/-- **A scan at another place of the text** finds the same pieces, or reports the same error further
on. -/
theorem scan_shift (n : Nat) (context : Context) (position : Nat) (text : List Char) :
    (context.shift n).scan (position + n) text =
      (context.scan position text).mapError (·.shift n) := by
  fun_induction Context.scan context position text with
  | case1 context position =>
    rw [Context.scan, finish_shift]
    cases context.finish with
    | error error => rfl
    | ok _ => rfl
  | case2 context position c rest error herror =>
    rw [Context.scan, step_shift, herror]
    rfl
  | case3 context position c rest step hstep piece error herror ih =>
    rw [herror, Nat.add_right_comm] at ih
    rw [Context.scan, step_shift, hstep]
    dsimp only [shiftAnswer, Step.shift]
    rw [ih]
    rfl
  | case4 context position c rest step hstep piece later hlater ih =>
    rw [hlater, Nat.add_right_comm] at ih
    rw [Context.scan, step_shift, hstep]
    dsimp only [shiftAnswer, Step.shift]
    rw [ih]
    rfl

/-! ## A line break behind a script -/

/-- A text that does not end in a blank. -/
def EndsMeaningful (text : List Char) : Prop :=
  ∀ c, text.getLast? = some c → Unicode.isBlank c = false

/-- **A line break ends a script.** What stands from there on is scanned as if it stood alone. -/
theorem scan_lineBreak {b : Char} (hb : RegExp.isLineBreak b = true) (t : List Char)
    {text : List Char} {found : List Piece} (hends : EndsMeaningful text)
    (h : context.scan position text = .ok found) :
    context.scan position (text ++ b :: t) =
      (Context.start.scan (position + byteLength text) (b :: t)).map (found ++ ·) := by
  induction h using scan_induction with
  | stop position =>
    show Context.start.scan position (b :: t) =
      (Context.start.scan (position + 0) (b :: t)).map ([] ++ ·)
    rw [Nat.add_zero]
    cases Context.start.scan position (b :: t) with
    | error error => rfl
    | ok later => rfl
  | @step context position c rest step later hstep hlater ih =>
    obtain ⟨old, rfl⟩ := prefix_of_step hstep
    rw [List.drop_left] at ih hlater
    have hold : EndsMeaningful old := by
      intro d hd
      apply hends d
      rw [← List.cons_append, List.getLast?_append, hd]
      rfl
    -- white space up to the end would be a blank at the end
    have hblank : step.kind = .whitespace → step.tail ≠ step.tail ++ old := by
      intro hkind hall
      obtain rfl : old = [] := by simpa using hall
      rw [List.append_nil] at hends
      have hfits := (fits_of_step hstep).2
      rw [hkind] at hfits
      obtain ⟨d, hd⟩ : ∃ d, (c :: step.tail).getLast? = some d :=
        ⟨_, List.getLast?_eq_some_getLast (List.cons_ne_nil _ _)⟩
      have hcontra := (hfits d (List.mem_of_getLast? hd)).symm.trans (hends d hd)
      exact absurd hcontra (by simp)
    rw [List.cons_append, Context.scan, step_lineBreak hb t hstep hblank]
    dsimp only
    rw [List.append_assoc, List.drop_left, ih hold]
    have hplace : position + byteLength (c :: step.tail) + byteLength old =
        position + byteLength (c :: (step.tail ++ old)) := by
      rw [Nat.add_assoc, ← byteLength_append, List.cons_append]
    rw [hplace]
    cases Context.start.scan (position + byteLength (c :: (step.tail ++ old))) (b :: t) with
    | error error => rfl
    | ok last => rfl

/-- A line feed before a text that begins with no blank is a piece of white space. -/
theorem scan_lineFeed (position : Nat) {text : List Char} (hstops : Stops Unicode.isBlank text) :
    Context.start.scan position ('\n' :: text) =
      ((Context.start.scan 0 text).mapError (·.shift (position + 1))).map
        (⟨.whitespace, ['\n']⟩ :: ·) := by
  have hstep : Context.start.step position '\n' text = .ok ⟨.whitespace, [], .start⟩ := by
    show Context.start.codeStep position '\n' text = _
    rw [codeStep_eq, Lead.of_isBlank (by decide)]
    dsimp only
    rw [hstops.takeWhile_eq]
    rfl
  have hshift : Context.start.scan (position + byteLength ['\n']) text =
      (Context.start.scan 0 text).mapError (·.shift (position + 1)) := by
    rw [← scan_shift (position + 1) .start 0 text, Nat.zero_add]
    rfl
  rw [Context.scan, hstep]
  dsimp only
  rw [List.length_nil, List.drop_zero, hshift]
  cases Context.start.scan 0 text with
  | error error => rfl
  | ok later => rfl

end Context

/-! ## The law -/

theorem Piece.locate_append (start : Nat) (pieces later : List Piece) :
    Piece.locate start (pieces ++ later) =
      Piece.locate start pieces ++
        Piece.locate (start + byteLength (pieces.flatMap Piece.text)) later := by
  induction pieces generalizing start with
  | nil => rfl
  | cons piece rest ih =>
    show (⟨piece.kind, start, start + byteLength piece.text⟩ : Mark) ::
      Piece.locate (start + byteLength piece.text) (rest ++ later) = _
    rw [ih, List.flatMap_cons, byteLength_append, Nat.add_assoc]
    rfl

theorem Piece.locate_shift (n start : Nat) (pieces : List Piece) :
    Piece.locate (start + n) pieces = (Piece.locate start pieces).map (·.shift n) := by
  induction pieces generalizing start with
  | nil => rfl
  | cons piece rest ih =>
    have hstop : start + n + byteLength piece.text = start + byteLength piece.text + n := by omega
    show (⟨piece.kind, start + n, start + n + byteLength piece.text⟩ : Mark) ::
      Piece.locate (start + n + byteLength piece.text) rest = _
    rw [hstop, ih]
    rfl

namespace TokenStream

/-- What each token is, and where it stands. -/
def marks (stream : TokenStream) : List Mark :=
  stream.tokens.toList.map fun token => ⟨token.kind, token.span⟩

/-- The texts of the tokens. -/
def lexemes (stream : TokenStream) : List String := stream.tokens.toList.map Token.lexeme

theorem marks_ofMarks (source : String) (marks : List Mark) :
    (ofMarks source marks).marks = marks := by
  have hmarks : (ofMarks source marks).marks = marks.map id :=
    link_map (fun _ _ _ => rfl) 0 none marks
  rw [hmarks, List.map_id]

end TokenStream

theorem lexemes_of_pieces {source : String} {found : List Piece} (h : pieces source = .ok found) :
    (TokenStream.ofMarks source (Piece.locate 0 found)).lexemes =
      found.map fun piece => String.ofList piece.text := by
  have htext : source.toList = [] ++ found.flatMap Piece.text := (pieces_eq h).1.symm
  have hlexemes : (TokenStream.ofMarks source (Piece.locate 0 found)).lexemes =
      (Piece.locate 0 found).map (Mark.lexeme source) :=
    TokenStream.link_map (fun _ _ _ => rfl) 0 none (Piece.locate 0 found)
  rw [hlexemes]
  exact lexeme_locate htext

/-- **Scripts on lines of their own are taken apart each by itself.** Take a script that is taken
apart and does not end in a blank, and a text that does not begin with one, and put a line feed
between them. If the text is taken apart too, the tokens are those of the script, one of white space
for the line feed, and those of the text further on; and they are linked as in any stream. If it is
not, the same literal is reported, further on. -/
theorem tokenize_across_lineBreak {script text : String} {first : TokenStream}
    (hscript : tokenize script = .ok first)
    (hends : ∀ c, script.toList.getLast? = some c → Unicode.isBlank c = false)
    (hbegins : ∀ c, text.toList.head? = some c → Unicode.isBlank c = false) :
    (∀ second, tokenize text = .ok second →
      ∃ joined, tokenize (script ++ "\n" ++ text) = .ok joined ∧
        joined = TokenStream.ofMarks (script ++ "\n" ++ text) joined.marks ∧
        joined.marks = first.marks ++
          ⟨.whitespace, script.utf8ByteSize, script.utf8ByteSize + 1⟩ ::
            second.marks.map (·.shift (script.utf8ByteSize + 1)) ∧
        joined.lexemes = first.lexemes ++ "\n" :: second.lexemes) ∧
    (∀ error, tokenize text = .error error →
      tokenize (script ++ "\n" ++ text) = .error (error.shift (script.utf8ByteSize + 1))) := by
  obtain ⟨found, hfound, rfl⟩ := pieces_of_tokenize hscript
  have hstops : Stops Unicode.isBlank text.toList := fun c rest heq => hbegins c (by rw [heq]; rfl)
  have hchars : (script ++ "\n" ++ text).toList = script.toList ++ '\n' :: text.toList := by
    rw [String.toList_append, String.toList_append, List.append_assoc]
    rfl
  have hjoined : pieces (script ++ "\n" ++ text) =
      (((pieces text).mapError (·.shift (script.utf8ByteSize + 1))).map
        (⟨.whitespace, ['\n']⟩ :: ·)).map (found ++ ·) := by
    show Context.start.scan 0 _ = _
    rw [hchars, Context.scan_lineBreak (by decide) _ hends hfound, Nat.zero_add, byteLength_toList,
      Context.scan_lineFeed _ hstops]
    rfl
  constructor
  · intro second hsecond
    obtain ⟨later, hlater, rfl⟩ := pieces_of_tokenize hsecond
    have hall : pieces (script ++ "\n" ++ text) =
        .ok (found ++ ⟨.whitespace, ['\n']⟩ :: later) := by
      rw [hjoined, hlater]
      rfl
    refine ⟨_, tokenize_of_pieces hall, ?_, ?_, ?_⟩
    · rw [TokenStream.marks_ofMarks]
    · -- the marks behind the line feed begin at its end
      rw [TokenStream.marks_ofMarks, TokenStream.marks_ofMarks, TokenStream.marks_ofMarks,
        Piece.locate_append, (pieces_eq hfound).1, byteLength_toList, Nat.zero_add]
      have hlast := Piece.locate_shift (script.utf8ByteSize + 1) 0 later
      rw [Nat.zero_add] at hlast
      rw [← hlast]
      rfl
    · rw [lexemes_of_pieces hall, lexemes_of_pieces hfound, lexemes_of_pieces hlater,
        List.map_append]
      rfl
  · intro error herror
    have hnone : pieces text = .error error := by
      unfold tokenize at herror
      cases hpieces : pieces text with
      | error other =>
        rw [hpieces] at herror
        rw [Except.error.inj herror]
      | ok later =>
        rw [hpieces] at herror
        exact absurd herror (by simp [Except.map])
    unfold tokenize
    rw [hjoined, hnone]
    rfl

/-- A regular expression whose flags do not go on behind the line feed, before a name and before a
string without its end. -/
theorem regexp_ends_with_its_line :
    let script := "x=/b/"
    ∃ first second joined, tokenize script = .ok first ∧ tokenize "g" = .ok second ∧
      (∀ c, script.toList.getLast? = some c → Unicode.isBlank c = false) ∧
      tokenize (script ++ "\n" ++ "g") = .ok joined ∧
      joined.lexemes = ["x", "=", "/b/", "\n", "g"] ∧
      joined.marks = first.marks ++ [⟨.whitespace, 5, 6⟩, ⟨.identifier, 6, 7⟩] ∧
      tokenize (script ++ "\n" ++ "'g") = .error ⟨.string, 6⟩ := by
  intro script
  have hfirst : (tokenize script).toOption.map TokenStream.lexemes = some ["x", "=", "/b/"] := by
    decide +kernel
  have hsecond : (tokenize "g").toOption.map (fun stream => (stream.marks, stream.lexemes)) =
      some ([⟨.identifier, 0, 1⟩], ["g"]) := by decide +kernel
  have hstep : Context.start.step 0 '\x27' ['g'] = .error ⟨.string, 0⟩ := rfl
  have hopen : tokenize "'g" = .error ⟨.string, 0⟩ := by
    unfold tokenize pieces
    rw [show "'g".toList = ['\x27', 'g'] by decide, Context.scan, hstep]
    rfl
  have hends : ∀ c, script.toList.getLast? = some c → Unicode.isBlank c = false := by
    intro c hc
    rw [show script.toList.getLast? = some '/' by decide] at hc
    obtain rfl := Option.some.inj hc
    decide
  obtain ⟨first, htaken, hlexemes⟩ := Option.map_eq_some_iff.mp hfirst
  obtain ⟨second, htaken', hboth⟩ := Option.map_eq_some_iff.mp hsecond
  obtain ⟨hmarks', hlexemes'⟩ := Prod.mk.inj hboth
  have hscript := eq_ok_of_toOption htaken
  have htext := eq_ok_of_toOption htaken'
  obtain ⟨joined, hjoined, -, hmarks, htexts⟩ :=
    (tokenize_across_lineBreak hscript hends fun c hc => by
      obtain rfl : 'g' = c := Option.some.inj hc
      decide).1 second htext
  refine ⟨first, second, joined, hscript, htext, hends, hjoined, ?_, ?_, ?_⟩
  · rw [htexts, hlexemes, hlexemes']
    rfl
  · rw [hmarks, hmarks']
    rfl
  · refine (tokenize_across_lineBreak hscript hends fun c hc => ?_).2 _ hopen
    obtain rfl : '\x27' = c := Option.some.inj hc
    decide

end ScriptLink
