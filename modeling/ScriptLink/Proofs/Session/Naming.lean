import ScriptLink.Proofs.Session.Containment
import ScriptLink.Proofs.WrapperHeader

/-!
# Where the directories of a path come from

The path of a module is put together over many requests: each one resolves what a module names against
the path of that module. No directory is made up on the way. Each has been written out, with the slash
behind it, by someone: by the settings, by a request from outside, by the text of a module, or by a
registered loader.

* **`Named`** — the texts that paths are made of.
* **`directories_named`** — every directory of a recorded path is a directory of such a text. By
  induction on the steps of a session.
* **`executed_begins_with_header`** — how the text of every module that is run begins. The path
  stays inside the comment unless a directory that someone named ends in a star.
-/

namespace ScriptLink

/-- The texts that the paths of a session are made of. -/
inductive Named (config : Config) (host : Host) (commands : List Command) : String → Prop where
  | settings : Named config host commands config.defaultReferrer
  | asked {specifier : String} {referrer : Option String}
      (haction : TakenBy commands (.request specifier referrer)) :
      Named config host commands specifier
  | referrer {specifier referrer : String}
      (haction : TakenBy commands (.request specifier (some referrer))) :
      Named config host commands referrer
  | imported {path text specifier : String} {loader : Loader} {script : Script}
      (hheld : Held host commands path text)
      (hscript : transform config.exportsName (loader.take text).script = .ok script)
      (hmem : specifier ∈ (Linking.requestsOf (loader.take text).markers script.imports).paths) :
      Named config host commands specifier
  | target {suffix target : String} {loader : CustomLoader}
      (haction : TakenBy commands (.register suffix (.custom loader)))
      (htarget : loader.target = some target) :
      Named config host commands target

/-- What is asked for is named by whoever asks. -/
theorem Requested.named {config : Config} {host : Host} {commands : List Command}
    {referrer specifier : String} (h : Requested config host commands referrer specifier) :
    Named config host commands specifier := by
  cases h with
  | asked haction => exact .asked haction
  | imported hheld hscript hmem => exact .imported hheld hscript hmem
  | target haction htarget => exact .target haction htarget

namespace Session

variable {config : Config} {host : Host} {closed : String → Bool} {commands : List Command}
  {session : Session} {path importer specifier : String}

/-- **Every directory of a recorded path is named by someone.** -/
theorem directories_named (h : Steps (TakenBy commands) (start config host closed) session) :
    ∀ path, session.IsRecorded path → ∀ directory ∈ Path.directories path,
      ∃ text, Named config host commands text ∧ directory ∈ Path.directories text := by
  induction h with
  | refl => exact fun _ hmem => absurd hmem List.not_mem_nil
  | tail hsteps hlast ih =>
    intro path hrecorded directory hmem
    -- a new path comes from a module that is recorded already, or from outside
    rcases hlast.recorded_cases hrecorded with hold |
      ⟨importer, specifier, himporter, hnames, rfl, -⟩ | ⟨specifier, referrer, haction, rfl, -⟩
    · exact ih path hold directory hmem
    · rcases Path.mem_directories_resolve hmem with hreferrer | htarget
      · exact ih importer himporter directory hreferrer
      · exact ⟨specifier, (hnames.requested hsteps).named, htarget⟩
    · rcases Path.mem_directories_resolve hmem with hreferrer | htarget
      · cases referrer with
        | none =>
          rw [Steps.config hsteps] at hreferrer
          exact ⟨config.defaultReferrer, .settings, hreferrer⟩
        | some referrer => exact ⟨referrer, .referrer haction, hreferrer⟩
      · exact ⟨specifier, .asked haction, htarget⟩

/-- A module that the host runs is recorded. -/
theorem isRecorded_of_executed {allowed : Action → Prop}
    (h : Steps allowed (start config host closed) session) {wrapper : Wrapper}
    {dependencies : List (String × Content)}
    (hcall : .execute wrapper dependencies ∈ session.log.toList) :
    session.IsRecorded wrapper.path := by
  obtain ⟨index, hentry⟩ := List.mem_iff_getElem?.mp hcall
  rw [Array.getElem?_toList] at hentry
  obtain ⟨linking, requested, executed, hran, -, -⟩ := ran_of_log h hentry
  obtain ⟨record, hfound, -⟩ := hran.found
  obtain ⟨kept, hkept, -, -⟩ := hran.steps.keeps hfound
  rw [isRecorded_iff, hkept]
  rfl

/-- **How the text of every module that is run begins.** In any session, whatever its modules contain
and however it is used: if no directory of the module's path ends in a star, the first token of the
text is the whole header, and what stands behind it is scanned by itself. Otherwise the header ends in
the path, at the first closing mark, and the rest of the path is program text. Such a directory is not
made by resolving, but has been named by someone. -/
theorem executed_begins_with_header (config : Config) (host : Host) (closed : String → Bool)
    (commands : List Command) :
    let last := (start config host closed).performAll commands
    ∀ wrapper dependencies, .execute wrapper dependencies ∈ last.log.toList →
      wrapper.Headed ∧ ∀ directory ∈ Path.directories wrapper.path,
        ∃ text, Named config host commands text ∧ directory ∈ Path.directories text := by
  intro last wrapper dependencies hcall
  have hsteps : Steps (TakenBy commands) (start config host closed) last :=
    performAll_steps allowed_takenBy _
  have hrecorded : last.IsRecorded wrapper.path := isRecorded_of_executed hsteps hcall
  exact ⟨wrapper.headed, directories_named hsteps wrapper.path hrecorded⟩

/-! Modules below directories with a star in their names. -/

/-- The path of a module that a call runs, and its text. -/
def rendered? : HostCall → Option (String × String)
  | .execute wrapper _ => some (wrapper.path, wrapper.render)
  | _ => none

/-- The host of a module that imports another one, whose directory and name have stars in them. -/
def inwardStars : Host :=
  ⟨[("main.js", "import './x*y/b*.js'"), ("x*y/b*.js", "f();")], [], Host.exportOrigin, []⟩

/-- The session that has loaded these modules. -/
def inwardStarsSession : Session :=
  (start Config.default inwardStars fun _ => false).performAll [.load "main.js" none]

/-- Stars inside the names of directories, or in the name of the module, do no harm. -/
theorem inward_stars_stay_in_header :
    ∃ wrapper dependencies,
      .execute wrapper dependencies ∈ inwardStarsSession.log.toList ∧
      wrapper.path = "x*y/b*.js" ∧
      BeginsWithComment wrapper.render "/** @file x*y/b*.js */".toList
        ('\n' :: wrapper.code.toList) := by
  have hrun : ("x*y/b*.js", "/** @file x*y/b*.js */\nf();\n") ∈
      inwardStarsSession.log.toList.filterMap rendered? := by decide +kernel
  obtain ⟨call, hcall, hrendered⟩ := List.mem_filterMap.mp hrun
  cases call with
  | execute wrapper dependencies =>
    obtain ⟨hpath, -⟩ := Prod.mk.inj (Option.some.inj hrendered)
    have hheaded := (executed_begins_with_header Config.default inwardStars (fun _ => false)
      [.load "main.js" none] wrapper dependencies hcall).1
    have hcomment := hheaded.comment_eq (by rw [hpath]; decide)
    rw [hpath] at hcomment
    exact ⟨wrapper, dependencies, hcall, hpath, hcomment⟩
  | _ => exact absurd hrendered (by simp [rendered?])

/-- The host of a module in a directory whose name ends in a star. -/
def outwardStar : Host := ⟨[("a*/b.js", "x();")], [], Host.exportOrigin, []⟩

/-- The session that has loaded this module. -/
def outwardStarSession : Session :=
  (start Config.default outwardStar fun _ => false).performAll [.load "a*/b.js" none]

/-- A star at the end of a directory ends the header, and the name of the module is program text. -/
theorem outward_star_ends_header :
    ∃ wrapper dependencies stream,
      .execute wrapper dependencies ∈ outwardStarSession.log.toList ∧
      wrapper.header = "/** @file a*/b.js */\n" ∧ tokenize wrapper.render = .ok stream ∧
      stream.toPieces.take 2 =
        [⟨.docComment, "/** @file a*/".toList⟩, ⟨.identifier, "b".toList⟩] := by
  have hrun : ("a*/b.js", "/** @file a*/b.js */\nx();\n") ∈
      outwardStarSession.log.toList.filterMap rendered? := by decide +kernel
  have htokens : (tokenize "/** @file a*/b.js */\nx();\n").toOption.map
      (fun stream => stream.toPieces.take 2) =
      some [⟨.docComment, "/** @file a*/".toList⟩, ⟨.identifier, "b".toList⟩] := by
    decide +kernel
  obtain ⟨call, hcall, hrendered⟩ := List.mem_filterMap.mp hrun
  cases call with
  | execute wrapper dependencies =>
    obtain ⟨hpath, hrender⟩ := Prod.mk.inj (Option.some.inj hrendered)
    obtain ⟨stream, hstream, htake⟩ := Option.map_eq_some_iff.mp htokens
    refine ⟨wrapper, dependencies, stream, hcall, ?_, ?_, htake⟩
    · rw [Wrapper.header, hpath]
      rfl
    · rw [hrender]
      exact eq_ok_of_toOption hstream
  | _ => exact absurd hrendered (by simp [rendered?])

end Session

end ScriptLink
