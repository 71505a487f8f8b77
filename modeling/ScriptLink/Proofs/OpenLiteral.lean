import ScriptLink.Proofs.Lookahead.Literal
import ScriptLink.Proofs.TemplateNesting

/-!
# Literals left open

A script is refused when the scanner comes to the end of the text inside a literal. There are five
ways for that to happen, and each names a place. Here it is shown that the literal begins at that
place. For a template this is not where the scanner stands: it may have passed any number of
interpolations since the back-tick, and only its context still knows where that was.

* **`LiteralKind.Begins`** — a text begins with a literal of a kind.
* **`Quoted.Passed`**, **`Quoted.IsOpen`** — what the search for a closing quote passes over, and a
  string that it does not find the end of.
* **`Context.Breaks`** — the ways in which a scan breaks off.
* **`Context.Comes.opened`** — every back-tick that a context remembers was a step of the scan.
* **`begins_of_error`** — at the place of an error begins the literal that it names.
-/

namespace ScriptLink

/-! ## Where a literal begins -/

namespace LiteralKind

/-- What a literal of the kind can begin with. -/
def openers : LiteralKind → List (List Char)
  | template => [['\x60']]
  | docComment => [['/', '*', '*']]
  | comment => [['/', '*']]
  | string => [['\x22'], ['\x27']]

/-- The text begins with a literal of the kind. -/
def Begins (kind : LiteralKind) (text : List Char) : Prop :=
  ∃ opener ∈ kind.openers, opener <+: text

/-- The kind of the token that the literal is, if it has its end. -/
def tokenKind : LiteralKind → TokenKind
  | template => .template
  | docComment => .docComment
  | comment => .comment
  | string => .string

end LiteralKind

namespace Quoted

/-- Text that the search for the closing quote passes over: no such quote is in it and no line
break, unless a backslash takes it along. -/
inductive Passed (quote : Char) : List Char → Prop where
  | nil : Passed quote []
  | escaped (c : Char) {rest : List Char} (hrest : Passed quote rest) :
      Passed quote ('\\' :: c :: rest)
  | plain {c : Char} {rest : List Char} (hslash : c ≠ '\\') (hquote : c ≠ quote)
      (hbreak : c ∉ ['\n', '\r']) (hrest : Passed quote rest) : Passed quote (c :: rest)

/-- The text begins with a quote, and no closing one comes before the end of the line or of the
text. -/
def IsOpen (text : List Char) : Prop :=
  ∃ quote rest, (quote = '\x22' ∨ quote = '\x27') ∧ text = quote :: rest ∧
    ¬ ∃ body after, rest = body ++ quote :: after ∧ Passed quote body

/-- Behind text that is passed over the closing quote is found. -/
theorem body?_of_passed {quote : Char} (hquote : quote = '\x22' ∨ quote = '\x27')
    {body : List Char} (h : Passed quote body) (after : List Char) :
    body? quote (body ++ quote :: after) = some body := by
  induction h with
  | nil => rcases hquote with rfl | rfl <;> rfl
  | escaped c hrest ih =>
    show (body? quote (_ ++ quote :: after)).map _ = _
    rw [ih]
    rfl
  | plain hslash hne hbreak hrest ih =>
    rw [List.cons_append, body?_cons quote hslash, if_neg (by simpa using hbreak),
      if_neg (by simpa using hne), ih]
    rfl

theorem isOpen_of_body? {quote : Char} (hquote : quote = '\x22' ∨ quote = '\x27')
    {rest : List Char} (h : body? quote rest = none) : IsOpen (quote :: rest) := by
  refine ⟨quote, rest, hquote, rfl, ?_⟩
  rintro ⟨body, after, rfl, hpassed⟩
  rw [body?_of_passed hquote hpassed] at h
  exact absurd h (by simp)

end Quoted

namespace Context

variable {source : String} {context : Context} {position : Nat} {c : Char} {rest text : List Char}
  {step : Step} {error : Unterminated}

/-! ## How a scan breaks off -/

/-- The ways in which a scan breaks off before `text`, which begins at byte `position`. -/
inductive Breaks (context : Context) (position : Nat) : List Char → Unterminated → Prop where
  /-- the text ends inside an interpolation -/
  | inside {top : Interpolation} {outer : List Interpolation} (hcode : context.mode = .code)
      (hopen : context.interpolations = top :: outer) :
      Breaks context position [] ⟨.template, top.opened⟩
  /-- template text goes on to the end -/
  | segment {opened : Nat} {text : List Char} (htemplate : context.mode = .template opened)
      (hsegment : Template.segment? text = none) : Breaks context position text ⟨.template, opened⟩
  | tick {rest : List Char} (hcode : context.mode = .code)
      (hsegment : Template.segment? rest = none) :
      Breaks context position ('\x60' :: rest) ⟨.template, position⟩
  | comment {body : List Char} (hcode : context.mode = .code)
      (hblock : Comment.block? body = none) :
      Breaks context position ('/' :: '*' :: body)
        ⟨if Comment.isDoc body then .docComment else .comment, position⟩
  | quote {quote : Char} {rest : List Char} (hcode : context.mode = .code)
      (hquote : quote = '\x22' ∨ quote = '\x27') (hbody : Quoted.body? quote rest = none) :
      Breaks context position (quote :: rest) ⟨.string, position⟩

theorem breaks_of_finish (position : Nat) (h : context.finish = .error error) :
    Breaks context position [] error := by
  obtain ⟨mode, stack⟩ := context
  cases mode with
  | template opened =>
    obtain rfl := Except.error.inj h
    exact .segment rfl rfl
  | code =>
    cases stack with
    | nil => exact absurd h (by simp [finish])
    | cons top outer =>
      -- the innermost interpolation is the one that is named
      obtain rfl := Except.error.inj h
      exact .inside rfl rfl

theorem breaks_of_slashStep (hcode : context.mode = .code)
    (h : context.slashStep position rest = .error error) :
    Breaks context position ('/' :: rest) error := by
  unfold slashStep at h
  split at h
  · exact absurd h (by simp)
  · dsimp only at h
    split at h
    · exact absurd h (by simp)
    · next hblock =>
      obtain rfl := Except.error.inj h
      exact .comment hcode hblock
  · split at h <;> exact absurd h (by simp)

theorem breaks_of_codeStep (hcode : context.mode = .code)
    (h : context.codeStep position c rest = .error error) :
    Breaks context position (c :: rest) error := by
  have hlead := Lead.admits_of c
  rw [codeStep_eq] at h
  generalize Lead.of c = lead at h hlead
  cases lead with
  | tick =>
    obtain rfl := hlead
    dsimp only at h
    split at h
    · exact absurd h (by simp)
    · next hsegment =>
      obtain rfl := Except.error.inj h
      exact .tick hcode hsegment
  | quote =>
    dsimp only at h
    split at h
    · exact absurd h (by simp)
    · next hbody =>
      obtain rfl := Except.error.inj h
      exact .quote hcode hlead hbody
  | slash =>
    obtain rfl := hlead
    exact breaks_of_slashStep hcode h
  -- nothing else has an end that can be missing
  | digit | mark =>
    dsimp only at h
    split at h <;> exact absurd h (by simp)
  | openBrace | closeBrace | bracket | word | blank => exact absurd h (by simp)

theorem breaks_of_step (h : context.step position c rest = .error error) :
    Breaks context position (c :: rest) error := by
  unfold Context.step at h
  split at h
  · next hcode => exact breaks_of_codeStep hcode h
  · next opened htemplate =>
    unfold templateStep at h
    split at h
    · next hsegment =>
      obtain rfl := Except.error.inj h
      exact .segment htemplate hsegment
    · exact absurd h (by simp)
    · exact absurd h (by simp)

/-- **A scan that fails comes to where it breaks off.** -/
theorem exists_breaks_of_scan (context : Context) (position : Nat) (text : List Char)
    (hcomes : Comes source context position text) :
    ∀ error, context.scan position text = .error error →
      ∃ last place rest, Comes source last place rest ∧ Breaks last place rest error := by
  fun_induction Context.scan context position text with
  | case1 context position =>
    exact fun error h => ⟨context, position, [], hcomes,
      breaks_of_finish position (error_of_map_eq_error h)⟩
  | case2 context position c rest error hstep =>
    intro other h
    obtain rfl := Except.error.inj h
    exact ⟨context, position, c :: rest, hcomes, breaks_of_step hstep⟩
  | case3 context position c rest step hstep piece error herror ih =>
    intro other h
    obtain rfl := Except.error.inj h
    exact ih (hcomes.step hstep) error herror
  | case4 => exact fun error h => absurd h (by simp)

/-! ## Where the scan came by -/

/-- The place that a scan comes to in a text is where its rest begins. -/
theorem Comes.exists_before (h : Comes source context position text) :
    ∃ before, source.toList = before ++ text ∧ position = byteLength before := by
  induction h with
  | start => exact ⟨[], rfl, rfl⟩
  | @step context position c rest step hcomes hstep ih =>
    obtain ⟨before, hsplit, rfl⟩ := ih
    obtain ⟨old, rfl⟩ := prefix_of_step hstep
    refine ⟨before ++ c :: step.tail, ?_, (byteLength_append _ _).symm⟩
    rw [List.drop_left, hsplit, List.append_assoc]
    rfl

/-- The places of all back-ticks that the context remembers: of the literal whose text comes, and of
those around the interpolations that are open. -/
def openings (context : Context) : List Nat :=
  match context.mode with
  | .code => context.interpolations.map (·.opened)
  | .template opened => opened :: context.interpolations.map (·.opened)

theorem openings_openBrace (context : Context) : context.openBrace.openings = context.openings := by
  obtain ⟨mode, stack⟩ := context
  cases stack with
  | nil => rfl
  | cons top outer => cases mode <;> rfl

/-- The context that a brace closes in remembers nothing new. -/
theorem mem_openings_of_closeBrace (hcode : context.mode = .code) {opened : Nat}
    (h : opened ∈ context.closeBrace.openings) : opened ∈ context.openings := by
  obtain ⟨mode, stack⟩ := context
  obtain rfl : mode = .code := hcode
  cases stack with
  | nil => exact h
  | cons top outer =>
    unfold closeBrace at h
    dsimp only at h
    -- back in its literal, the place of the back-tick moves from the stack to the mode
    split at h
    · exact h
    · exact h

/-- **A step remembers a back-tick only if it takes it.** -/
theorem mem_openings_of_step (h : context.step position c rest = .ok step) {opened : Nat}
    (hmem : opened ∈ step.next.openings) :
    opened ∈ context.openings ∨ opened = position ∧ c = '\x60' ∧ step.kind = .template := by
  unfold Context.step at h
  split at h
  · next hcode =>
    rcases codeStep_cases h with ⟨-, rfl⟩ | ⟨-, rfl⟩ | ⟨rfl, segment, -, rfl⟩ |
      ⟨-, -, -, kind, tail, -, rfl⟩
    · exact .inl (openings_openBrace context ▸ hmem)
    · exact .inl (mem_openings_of_closeBrace hcode hmem)
    · -- the literal that begins here is remembered unless it ends here too
      obtain ⟨text, closes⟩ := segment
      unfold afterSegment openings at hmem
      unfold openings
      rw [hcode]
      cases closes with
      | true => exact .inl hmem
      | false =>
        rcases List.mem_cons.mp hmem with rfl | hmem
        · exact .inr ⟨rfl, rfl, rfl⟩
        · exact .inl hmem
    · exact .inl hmem
  · next literal htemplate =>
    have hopenings : context.openings = literal :: context.interpolations.map (·.opened) := by
      unfold openings
      rw [htemplate]
    rw [hopenings]
    rcases templateStep_cases h with ⟨later, -, rfl⟩ | ⟨tail, closes, -, rfl⟩
    · exact .inl hmem
    · cases closes with
      | true => exact .inl (List.mem_cons_of_mem _ hmem)
      | false => exact .inl hmem

/-- **Every back-tick that a context remembers** was a step of the scan. -/
theorem Comes.opened (h : Comes source context position text) {opened : Nat}
    (hmem : opened ∈ context.openings) :
    ∃ earlier rest step, Comes source earlier opened ('\x60' :: rest) ∧
      earlier.step opened '\x60' rest = .ok step ∧ step.kind = .template := by
  induction h with
  | start => exact absurd hmem List.not_mem_nil
  | step hcomes hstep ih =>
    rcases mem_openings_of_step hstep hmem with hbefore | ⟨rfl, rfl, hkind⟩
    · exact ih hbefore
    · exact ⟨_, _, _, hcomes, hstep, hkind⟩

/-! ## The place of an error -/

/-- What breaks off is a template that the context remembers, or it begins right here. -/
theorem Breaks.begins (h : Breaks context position text error) :
    (error.literal = .template ∧ error.offset ∈ context.openings) ∨
    (error.offset = position ∧ error.literal.Begins text ∧
      (error.literal = .string → Quoted.IsOpen text)) := by
  cases h with
  | inside hcode hopen =>
    refine .inl ⟨rfl, ?_⟩
    unfold openings
    rw [hcode, hopen]
    exact List.mem_cons_self
  | segment htemplate hsegment =>
    refine .inl ⟨rfl, ?_⟩
    unfold openings
    rw [htemplate]
    exact List.mem_cons_self
  | tick hcode hsegment =>
    exact .inr ⟨rfl, ⟨_, List.mem_cons_self, List.prefix_append ['\x60'] _⟩,
      fun hstring => absurd hstring (by simp)⟩
  | @comment body hcode hblock =>
    refine .inr ⟨rfl, ?_, fun hstring => ?_⟩
    · cases hdoc : Comment.isDoc body with
      | true =>
        have hbody := Comment.cons_of_isDoc hdoc
        rw [hbody]
        exact ⟨_, List.mem_cons_self, List.prefix_append ['/', '*', '*'] _⟩
      | false => exact ⟨_, List.mem_cons_self, List.prefix_append ['/', '*'] body⟩
    · dsimp only at hstring
      split at hstring <;> exact absurd hstring (by simp)
  | @quote quote rest hcode hquote hbody =>
    refine .inr ⟨rfl, ⟨[quote], ?_, List.prefix_append [quote] rest⟩,
      fun _ => Quoted.isOpen_of_body? hquote hbody⟩
    rcases hquote with rfl | rfl
    · exact List.mem_cons_self
    · exact List.mem_cons_of_mem _ List.mem_cons_self

end Context

/-- A script that is refused for a literal was read up to where its scan breaks off. -/
theorem exists_breaks_of_tokenize {source : String} {error : Unterminated}
    (h : tokenize source = .error error) :
    ∃ context position rest, Context.Comes source context position rest ∧
      context.Breaks position rest error :=
  Context.exists_breaks_of_scan .start 0 source.toList .start error (error_of_map_eq_error h)

/-- **At the place of an error begins the literal that it names**, and a string that is named is
open. -/
theorem begins_of_error {source : String} {error : Unterminated}
    (h : tokenize source = .error error) :
    ∃ before after, source.toList = before ++ after ∧ error.offset = byteLength before ∧
      error.literal.Begins after ∧ (error.literal = .string → Quoted.IsOpen after) := by
  obtain ⟨context, position, rest, hcomes, hbreaks⟩ := exists_breaks_of_tokenize h
  rcases hbreaks.begins with ⟨hkind, hmem⟩ | ⟨hplace, hbegins, hopen⟩
  · -- a template that began earlier
    obtain ⟨earlier, later, step, hearlier, -, -⟩ := hcomes.opened hmem
    obtain ⟨before, hsplit, hplace⟩ := hearlier.exists_before
    refine ⟨before, '\x60' :: later, hsplit, hplace, ?_, fun hstring => ?_⟩
    · rw [hkind]
      exact ⟨_, List.mem_cons_self, List.prefix_append ['\x60'] later⟩
    · rw [hkind] at hstring
      exact absurd hstring (by simp)
  · obtain ⟨before, hsplit, hbefore⟩ := hcomes.exists_before
    exact ⟨before, rest, hsplit, hplace.trans hbefore, hbegins, hopen⟩

end ScriptLink
