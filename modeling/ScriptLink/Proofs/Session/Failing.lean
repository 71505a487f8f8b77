import ScriptLink.Proofs.Session.Errors
import ScriptLink.Proofs.Session.Sealing

/-!
# How loads fail

A load of a built-in loader fails in two ways: a step of its own raises an error, or a dependency
that it waits for has failed, and then it ends with the error of the dependency, the same one and
not a copy.

* **`Fails`** — the step in which a load ends with an error, found again in the history of the
  session.
* **`OwnError`** — the errors that the steps of a built-in load raise, one constructor per step.
* **`FailureOrigin`** — where the error of a load comes from. `fails_of_start` finds it behind every
  load that has failed.
* **`Ran.arrived`** — a module that is run has the contents of all dependencies that it waited for.
* **`TextRefused`**, **`TextFailed`** — a module whose text is refused by the rewrite.
  `Move.of_textFailed`: all that such a module ever does is to fetch its text and to fail.
* **`error_propagation`** — the law.
-/

namespace ScriptLink

/-- Whether every session has the loader. -/
def Loader.isBuiltIn : Loader → Bool
  | .script | .stylesheet | .component => true
  | .echo | .custom _ => false

theorem Loader.delegates_of_isBuiltIn {loader : Loader} (h : loader.isBuiltIn = true) :
    loader.delegates = false := by
  cases loader with
  | echo => exact absurd h (by simp [isBuiltIn])
  | custom loader => exact absurd h (by simp [isBuiltIn])
  | _ => rfl

/-- The error that a load has ended with. -/
def Task.failure? : Task → Option Failure
  | .settled (.error failure) => some failure
  | _ => none

theorem Task.failure?_eq_some {task : Task} {failure : Failure} :
    task.failure? = some failure ↔ task = .settled (.error failure) := by
  cases task with
  | settled outcome => cases outcome <;> simp [Task.failure?]
  | _ => simp [Task.failure?]

namespace Session

variable {allowed : Action → Prop} {base requested executed session after last : Session}
  {path : String} {record next : Record} {failure : Failure} {config : Config} {host : Host}
  {closed : String → Bool}

/-! ## The step in which a load fails -/

/-- The load of `path` ends with `failure` in a step that begins in `before`, where its record is
`record`. -/
structure Fails (allowed : Action → Prop) (base last : Session) (path : String)
    (failure : Failure) (before : Session) (record : Record) : Prop where
  reached : Steps allowed base before
  found : before.find? path = some record
  failed : ∃ after, Step allowed before after ∧
    after.find? path = some { record with task := .settled (.error failure) } ∧
    Steps allowed after last

/-- The error that a step of a built-in load raises. -/
inductive OwnError (session : Session) (record : Record) : LoadError → Prop where
  | fetch {message : String} (htask : record.task = .fetching)
      (hfailed : session.pass? (.fetch record.path) = some (.error message) ∨
        session.host.fetch record.path = .error message) :
      OwnError session record (.host message)
  | transpile {text : String} {source : SourceError} (htask : record.task = .fetching)
      (hfetch : session.host.fetch record.path = .ok text)
      (hscript : transform session.config.exportsName (record.loader.take text).script
        = .error source) :
      OwnError session record (.transpile record.path source)
  | execute {wrapper : Wrapper} {dependencies : List (String × Content)}
      {component : Option Component} {message : String}
      (htask : record.task = .executing wrapper dependencies component)
      (hfailed : session.pass? (.execute wrapper dependencies) = some (.error message)) :
      OwnError session record (.host message)
  | style {css : String} {later : List String} {exports : Content} {template : Option String}
      {message : String} (htask : record.task = .styling css later exports template)
      (hfailed : session.pass? (.style css) = some (.error message)) :
      OwnError session record (.host message)
  | stylesheet {message : String} (htask : record.task = .injecting)
      (hfailed : session.pass? (.stylesheet record.path) = some (.error message)) :
      OwnError session record (.host message)
  /-- the exports of a component without styles cannot carry its template -/
  | component {wrapper : Wrapper} {dependencies : List (String × Content)} {component : Component}
      (htask : record.task = .executing wrapper dependencies (some component))
      (hstyles : component.styles = [])
      (hattach : Component.withTemplate? component.template (session.host.execute wrapper)
        = none) :
      OwnError session record (.invalidComponent record.path)
  /-- the same, found after the last style -/
  | styledComponent {css : String} {exports : Content} {template : Option String}
      (htask : record.task = .styling css [] exports template)
      (hattach : Component.withTemplate? template exports = none) :
      OwnError session record (.invalidComponent record.path)
  | sealing {content : Content} (hyields : Yields session record content)
      (hslot : record.slot ≠ .empty) :
      OwnError session record (.duplicateExport record.path)

/-- A load of a built-in loader is never at a call of a registered one. -/
theorem Raises.ownError {error : LoadError} (h : Raises session record error)
    (hfits : record.task.Fits record.loader) (hbuiltIn : record.loader.isBuiltIn = true) :
    OwnError session record error := by
  have hcustom : ∀ loader, record.task ≠ .customizing loader := by
    intro loader htask
    rw [htask] at hfits
    rw [hfits] at hbuiltIn
    exact absurd hbuiltIn (by simp [Loader.isBuiltIn])
  cases h with
  | refused hcall hpass =>
    cases htask : record.task with
    | fetching =>
      rw [htask] at hcall
      obtain rfl := Option.some.inj hcall
      exact .fetch htask (Or.inl hpass)
    | executing wrapper dependencies component =>
      rw [htask] at hcall
      obtain rfl := Option.some.inj hcall
      exact .execute htask hpass
    | styling css later exports template =>
      rw [htask] at hcall
      obtain rfl := Option.some.inj hcall
      exact .style htask hpass
    | injecting =>
      rw [htask] at hcall
      obtain rfl := Option.some.inj hcall
      exact .stylesheet htask hpass
    | customizing loader => exact absurd htask (hcustom loader)
    | _ => exact absurd hcall (by simp [htask, Task.call?])
  | missing htask _ hfetch => exact .fetch htask (Or.inr hfetch)
  | transpile htask _ hfetch hscript => exact .transpile htask hfetch hscript
  | bareComponent htask _ hstyles hattach => exact .component htask hstyles hattach
  | styledComponent htask _ hattach => exact .styledComponent htask hattach
  | duplicate hyields hslot => exact .sealing hyields hslot
  | custom htask _ _ _ => exact absurd htask (hcustom _)
  | customDuplicate htask _ _ _ => exact absurd htask (hcustom _)

/-- Where the error comes from with which the load of `path` ends. -/
inductive FailureOrigin (allowed : Action → Prop) (base before : Session) (path : String)
    (record : Record) (failure : Failure) : Prop where
  /-- A step of the load itself raises it, and it is none of the errors that there are. -/
  | raised (herror : OwnError before record failure.error) (hid : failure.id = before.failures)
      (hnumbered : Numbered before) : FailureOrigin allowed base before path record failure
  /-- A dependency that the module waits for has ended with it. -/
  | dependency {requested : Session} {linking : Linking} {specifier : String}
      (htask : record.task = .linking linking)
      (hasked : Asked allowed base requested before path record.loader linking)
      (hmem : specifier ∈ linking.requests.paths)
      (hfree : requested.waits.leads (Path.resolve path specifier) path = false)
      (hfailed : before.outcomeOf (.load (Path.resolve path specifier)) = some (.error failure)) :
      FailureOrigin allowed base before path record failure
  /-- A dependency that the module waits for was refused with it, since its suffix had no loader. -/
  | refused {requested : Session} {linking : Linking} {specifier : String}
      (htask : record.task = .linking linking)
      (hasked : Asked allowed base requested before path record.loader linking)
      (hmem : specifier ∈ linking.requests.paths)
      (hfree : requested.waits.leads (Path.resolve path specifier) path = false)
      (hunknown : requested.loaders.find? specifier = none)
      (hanswer : ⟨Path.resolve path specifier, .awaited (.refused failure)⟩ ∈ linking.dependencies)
      (herror : failure.error = .unknownSuffix (Path.resolve path specifier)) :
      FailureOrigin allowed base before path record failure

theorem Fails.step (h : Fails allowed base last path failure session record)
    {later : Session} (hstep : Step allowed last later) :
    Fails allowed base later path failure session record := by
  obtain ⟨after, hfails, hended, hafter⟩ := h.failed
  exact ⟨h.reached, h.found, after, hfails, hended, hafter.tail hstep⟩

/-- A module that gives up has waited for the dependency whose error it takes over. -/
theorem failureOrigin_of_abandon (hsteps : Steps allowed (start config host closed) session)
    (hfound : session.find? path = some record) {linking : Linking} {dependency : Dependency}
    {request : Request} (htask : record.task = .linking linking)
    (hmem : dependency ∈ linking.dependencies) (hwaiting : dependency.waiting = .awaited request)
    (hfailed : session.outcomeOf request = some (.error failure)) :
    FailureOrigin allowed (start config host closed) session path record failure := by
  obtain ⟨requested, hasked⟩ := asked_of_start hsteps path record hfound linking htask
  obtain ⟨specifier, hspecifier, hjudged⟩ := forall₂_mem_right hasked.judged hmem
  obtain ⟨_, -, hstanding⟩ := forall₂_mem_right
    (linksMatch_of_start hsteps path record hfound linking htask) hmem
  have hpath := hjudged.path_eq
  have hnot : dependency.waiting ≠ .deferred := by rw [hwaiting]; simp
  have hfree : requested.waits.leads (Path.resolve path specifier) path = false := by
    rw [← hpath, ← Bool.not_eq_true, ← hjudged.deferred_iff]
    exact hnot
  cases request with
  | load target =>
    -- the load that a dependency waits for is the one at its own path
    have htarget : target = dependency.path := by
      cases hstanding with
      | recorded _ => exact (Request.load.inj (Waiting.awaited.inj hwaiting)).symm
      | _ => exact absurd hwaiting (by simp)
    rw [htarget, hpath] at hfailed
    exact .dependency htask hasked hspecifier hfree hfailed
  | refused refusal =>
    obtain rfl := Except.error.inj (Option.some.inj hfailed)
    have hholds := (numbered_of_start hsteps).loads path record hfound
    rw [htask] at hholds
    have herror := (hholds dependency hmem _ hwaiting).2
    have hunknown := (hjudged.refused_iff hnot).mp ⟨_, hwaiting⟩
    obtain ⟨_, _⟩ := dependency
    obtain rfl := hwaiting
    obtain rfl := hpath
    exact .refused htask hasked hspecifier hfree hunknown hmem herror

/-- **Behind every built-in load that has failed stands the step in which it did**, and its error
was raised then or is that of a dependency. The induction goes back to the step before which the
load had not ended. -/
theorem fails_of_start (h : Steps allowed (start config host closed) last)
    (hfound : last.find? path = some next) (hbuiltIn : next.loader.isBuiltIn = true)
    (hended : next.task = .settled (.error failure)) :
    ∃ before record,
      Fails allowed (start config host closed) last path failure before record ∧
      FailureOrigin allowed (start config host closed) before path record failure := by
  induction h generalizing next with
  | refl => exact absurd hfound (by simp [start, find?])
  | @tail session last hsteps hlast ih =>
    have hearlier : ∀ {kept : Record}, session.find? path = some kept →
        kept.loader.isBuiltIn = true → kept.task = .settled (.error failure) →
        ∃ before record,
          Fails allowed (start config host closed) last path failure before record ∧
          FailureOrigin allowed (start config host closed) before path record failure := by
      intro kept hkept hloader hsettled
      obtain ⟨before, record, hfails, horigin⟩ := ih hkept hloader hsettled
      exact ⟨before, record, hfails.step hlast, horigin⟩
    cases hold : session.find? path with
    | none =>
      have hfresh := hlast.isFresh hold hfound
      exact absurd (hfresh.2.1.symm.trans hended) (by simp)
    | some record =>
      have hfits := tasksFit_of_start hsteps path record hold
      have hfails : next = { record with task := .settled (.error failure) } →
          Fails allowed (start config host closed) last path failure session record := by
        rintro rfl
        exact ⟨hsteps, hold, last, hlast, hfound, .refl⟩
      cases hlast.stepped hold hfound with
      | kept => exact hearlier hold hbuiltIn hended
      | sealed _ _ _ => exact hearlier hold hbuiltIn hended
      | moved _ hmoved =>
        cases hmoved with
        | call hcalls => exact absurd hended (hcalls.not_settled _)
        | abandon htask hmem hwaiting hfailed =>
          obtain rfl := Except.error.inj (Task.settled.inj hended)
          exact ⟨session, record, hfails rfl,
            failureOrigin_of_abandon hsteps hold htask hmem hwaiting hfailed⟩
        | raise hraises =>
          obtain rfl := Except.error.inj (Task.settled.inj hended)
          exact ⟨session, record, hfails rfl,
            .raised (hraises.ownError hfits hbuiltIn) rfl (numbered_of_start hsteps)⟩
        | inherit htask _ =>
          -- only a registered loader answers with another module
          rw [htask] at hfits
          have hdelegates : record.loader.delegates = true := hfits
          rw [Loader.delegates_of_isBuiltIn hbuiltIn] at hdelegates
          exact absurd hdelegates (by simp)
        | fill htask _ _ _ => exact absurd (htask.symm.trans hended) (by simp)
        | _ => exact absurd hended (by simp)

/-! ## What a module that is run has waited for -/

/-- **A module is run when everything that it waited for has ended well.** -/
theorem Ran.arrived {index : Nat} {linking : Linking}
    (h : Ran allowed (start config host closed) last index path linking requested executed)
    {specifier : String} (hmem : specifier ∈ linking.requests.paths)
    (hfree : requested.waits.leads (Path.resolve path specifier) path = false) :
    ∃ content, executed.outcomeOf (.load (Path.resolve path specifier)) = some (.ok content) := by
  obtain ⟨loader, hasked, -⟩ := h.asked
  obtain ⟨record, hfound, htask⟩ := h.found
  obtain ⟨dependency, hdependency, hjudged⟩ := forall₂_mem_left hasked.judged hmem
  obtain ⟨_, -, hstanding⟩ := forall₂_mem_right
    (linksMatch_of_start h.reached path record hfound linking htask) hdependency
  have hwaits : ∀ request, dependency.waiting ≠ .awaited request := fun request hwaiting =>
    absurd (h.ready.symm.trans (isWaiting_iff.mpr ⟨dependency, hdependency, request, hwaiting⟩))
      (by simp)
  rw [← hjudged.path_eq]
  cases hstanding with
  | refused => exact absurd rfl (hwaits _)
  | recorded _ => exact absurd rfl (hwaits _)
  | arrived houtcome => exact ⟨_, houtcome⟩
  | deferred =>
    have hleads := hjudged.deferred_iff.mp rfl
    rw [hjudged.path_eq, hfree] at hleads
    exact absurd hleads (by simp)

/-! ## Texts that are refused -/

/-- The load of `path` has its text, and the rewrite refuses it. -/
def TextRefused (session : Session) (path : String) (source : SourceError) : Prop :=
  ∃ record text, session.find? path = some record ∧ record.task = .fetching ∧
    session.pass? (.fetch path) = some (.ok ()) ∧ session.host.fetch path = .ok text ∧
    transform session.config.exportsName (record.loader.take text).script = .error source

/-- The load of `path` has ended since the rewrite has refused its text. -/
def TextFailed (session : Session) (path : String) (source : SourceError) : Prop :=
  ∃ number, session.outcomeOf (.load path) = some (.error ⟨number, .transpile path source⟩)

variable {source : SourceError}

theorem Calls.not_fetching {call : HostCall} {task : Task} (h : Calls session record call task) :
    record.task ≠ .fetching := by
  cases h <;> simp [*]

theorem Yields.not_fetching {content : Content} (h : Yields session record content) :
    record.task ≠ .fetching := by
  cases h <;> simp [*]

/-- A load that has begun to fetch its text goes on with it or fails by itself. -/
theorem Move.of_fetching (hmove : Move path session after)
    (hfound : session.find? path = some record) (htask : record.task = .fetching) :
    (∃ error, Raises session record error ∧ after = session.rejectWith path error) ∨
      ∃ text script, session.host.fetch path = .ok text ∧
        transform session.config.exportsName (record.loader.take text).script = .ok script := by
  have hsame : ∀ {other : Record}, session.find? path = some other → other = record :=
    fun hother => Option.some.inj (hother.symm.trans hfound)
  -- the moves that begin at another task are none of this load
  have hnot : ∀ {other : Record} {task : Task}, session.find? path = some other →
      other.task = task → task = .fetching :=
    fun hother hold => hold.symm.trans (hsame hother ▸ htask)
  rcases hmove with hturn | hlook
  · cases hturn with
    | raise hother hraises => exact Or.inl ⟨_, hsame hother ▸ hraises, rfl⟩
    | link hother _ _ hfetch hscript =>
      exact Or.inr ⟨_, _, hfetch, hsame hother ▸ hscript⟩
    | call hother hcalls => exact absurd (hsame hother ▸ htask) hcalls.not_fetching
    | resolve hother hyields _ => exact absurd (hsame hother ▸ htask) hyields.not_fetching
    | execute hother hold _ => exact absurd (hnot hother hold) (by simp)
    | abandon hother hold _ _ _ => exact absurd (hnot hother hold) (by simp)
    | inherit hother hold _ => exact absurd (hnot hother hold) (by simp)
    | fill hother hold _ _ _ => exact absurd (hnot hother hold) (by simp)
    | follow hother hold _ _ => exact absurd (hnot hother hold) (by simp)
  · cases hlook with
    | note hother hold _ => exact absurd (hnot hother hold) (by simp)

/-- Once its text is there, a load that fetches it can fail by itself only over that text. -/
theorem Raises.of_fetching {error : LoadError} {text : String}
    (h : Raises session record error) (htask : record.task = .fetching)
    (hpass : session.pass? (.fetch record.path) = some (.ok ()))
    (hfetch : session.host.fetch record.path = .ok text) :
    ∃ source, transform session.config.exportsName (record.loader.take text).script =
      .error source ∧ error = .transpile record.path source := by
  cases h with
  | refused hcall hrefused =>
    rw [htask] at hcall
    obtain rfl := Option.some.inj hcall
    exact absurd (hpass.symm.trans hrefused) (by simp)
  | missing _ _ hmissing => exact absurd (hfetch.symm.trans hmissing) (by simp)
  | transpile _ _ hother herror =>
    obtain rfl := Except.ok.inj (hfetch.symm.trans hother)
    exact ⟨_, herror, rfl⟩
  | duplicate hyields _ => exact absurd htask hyields.not_fetching
  | bareComponent hold _ _ _ => exact absurd (hold.symm.trans htask) (by simp)
  | styledComponent hold _ _ => exact absurd (hold.symm.trans htask) (by simp)
  | custom hold _ _ _ => exact absurd (hold.symm.trans htask) (by simp)
  | customDuplicate hold _ _ _ => exact absurd (hold.symm.trans htask) (by simp)

/-- With a text that is refused, a load can only fail. -/
theorem TextRefused.rejected (h : TextRefused session path source)
    (hmove : Move path session after) :
    after = session.rejectWith path (.transpile path source) := by
  obtain ⟨record, text, hfound, htask, hpass, hfetch, hscript⟩ := h
  rcases hmove.of_fetching hfound htask with ⟨error, hraises, rfl⟩ | ⟨other, script, hother, htaken⟩
  · obtain rfl := path_of_find? hfound
    obtain ⟨other, herror, rfl⟩ := hraises.of_fetching htask hpass hfetch
    obtain rfl := Except.error.inj (hscript.symm.trans herror)
    rfl
  · obtain rfl := Except.ok.inj (hfetch.symm.trans hother)
    exact absurd (hscript.symm.trans htaken) (by simp)

/-- A load fails with a refused text of its own only out of its fetch. -/
theorem Raises.fetching_of_transpile {error : LoadError} {blamed : String}
    (h : Raises session record error) (herror : error = .transpile blamed source) :
    record.task = .fetching := by
  cases h with
  | transpile htask _ _ _ => exact htask
  | @custom _ failure _ _ _ _ =>
    cases failure <;> exact absurd herror (by simp [CustomFailure.error])
  | _ => exact absurd herror (by simp)

/-- An error about the text of a module that reaches its load by way of another module was its own
before. -/
theorem Step.textFailed_cases (hstep : Step allowed session after) (hnumbered : Numbered session)
    (hblames : Blames session) (hfailed : after.TextFailed path source) :
    session.TextFailed path source ∨
      ∃ record, session.find? path = some record ∧ record.task = .fetching := by
  obtain ⟨number, hended⟩ := hfailed
  rcases hstep.failed_cases hnumbered hended with ⟨request, target, hrequest, hfailed⟩ |
    ⟨record, hfound, hraises⟩
  · exact Or.inl ⟨number, hblames.of_request hrequest hfailed rfl⟩
  · exact Or.inr ⟨record, hfound, hraises.fetching_of_transpile rfl⟩

/-- The load has its text behind it, and has not failed for it. -/
def PastText (session : Session) (path : String) (source : SourceError) : Prop :=
  2 ≤ session.stageOf path ∧ ¬ session.TextFailed path source

theorem PastText.step (h : session.PastText path source) (hnumbered : Numbered session)
    (hblames : Blames session) (hstep : Step allowed session after) :
    after.PastText path source := by
  refine ⟨Nat.le_trans h.1 (hstep.stage_le path), fun hfailed => ?_⟩
  rcases hstep.textFailed_cases hnumbered hblames hfailed with hbefore | ⟨record, hfound, htask⟩
  · exact h.2 hbefore
  · have hstage := h.1
    rw [stageOf_of_find? hfound, htask] at hstage
    exact absurd hstage (by simp [Task.stage])

theorem PastText.steps (h : session.PastText path source)
    (hbase : Steps allowed (start config host closed) session)
    (hsteps : Steps allowed session after) : after.PastText path source := by
  induction hsteps with
  | refl => exact h
  | tail hearlier hlast ih =>
    have hreached := hbase.trans hearlier
    exact ih.step (numbered_of_start hreached) (blames_of_start hreached) hlast

/-- A module whose text has been refused has a text. -/
theorem readsText_of_textFailed (h : Steps allowed (start config host closed) last)
    (hfailed : last.TextFailed path source) :
    ∃ loader, last.loaderOf path = some loader ∧ loader.readsText = true := by
  induction h with
  | refl =>
    obtain ⟨number, hended⟩ := hfailed
    exact absurd hended (by simp [start, outcomeOf, find?])
  | tail hsteps hlast ih =>
    have hkept : Steps allowed _ _ := .single hlast
    rcases hlast.textFailed_cases (numbered_of_start hsteps) (blames_of_start hsteps) hfailed with
      hbefore | ⟨record, hfound, htask⟩
    · obtain ⟨loader, hloader, hreads⟩ := ih hbefore
      exact ⟨loader, hkept.loaderOf hloader, hreads⟩
    · have hfits := tasksFit_of_start hsteps path record hfound
      rw [htask] at hfits
      exact ⟨record.loader, hkept.loaderOf (loaderOf_of_find? hfound), hfits⟩

/-- If the text of a module is refused in the end, a move that leaves the fetch behind is the one
that fails. -/
theorem Move.fetching_of_textFailed (hsteps : Steps allowed (start config host closed) session)
    (hmove : Move path session after) (hlater : Steps allowed after last)
    (hfailed : last.TextFailed path source) (hfound : session.find? path = some record)
    (hnext : after.find? path = some next) (hstage : 2 ≤ next.task.stage) :
    record.task = .fetching ∧
      ∃ number, next.task = .settled (.error ⟨number, .transpile path source⟩) := by
  have hstep : Step allowed session after := .move hmove
  -- otherwise the module would be past its text, and stay there
  have hnow : after.TextFailed path source := by
    by_contra hnot
    have hpast : after.PastText path source := ⟨by rw [stageOf_of_find? hnext]; exact hstage, hnot⟩
    exact (hpast.steps (hsteps.tail hstep) hlater).2 hfailed
  constructor
  · rcases hstep.textFailed_cases (numbered_of_start hsteps) (blames_of_start hsteps) hnow with
      ⟨number, hbefore⟩ | ⟨other, hother, hfetches⟩
    · -- a load that moves has not ended
      obtain ⟨other, hother, hdone⟩ := outcomeOf_load_eq_some.mp hbefore
      obtain ⟨moving, -, hmoving, hopen, -⟩ := hmove.reworked.own
      obtain rfl := Option.some.inj (hmoving.symm.trans hother)
      exact absurd (hdone ▸ hopen) (by simp [Task.outcome?])
    · obtain rfl := Option.some.inj (hfound.symm.trans hother)
      exact hfetches
  · obtain ⟨number, hended⟩ := hnow
    obtain ⟨other, hother, htask⟩ := outcomeOf_load_eq_some.mp hended
    obtain rfl := Option.some.inj (hnext.symm.trans hother)
    exact ⟨number, htask⟩

/-- **A module whose text is refused fetches it and fails.** It makes no other moves, neither before
nor afterwards; so it requests nothing. -/
theorem Move.of_textFailed (hsteps : Steps allowed (start config host closed) session)
    (hmove : Move path session after) (hlater : Steps allowed after last)
    (hfailed : last.TextFailed path source) :
    after = (session.call (.fetch path)).setTask path .fetching ∨
      after = session.rejectWith path (.transpile path source) := by
  have hended : ∀ {old changed : Record}, session.find? path = some old →
      after.find? path = some changed → 2 ≤ changed.task.stage → old.task = .fetching ∧
      ∃ number, changed.task = .settled (.error ⟨number, .transpile path source⟩) :=
    fun hold hchanged hstage =>
      hmove.fetching_of_textFailed hsteps hlater hfailed hold hchanged hstage
  -- a move from another task than the fetch would leave the text behind
  have hleft : ∀ {old changed : Record} {task : Task}, session.find? path = some old →
      after.find? path = some changed → 2 ≤ changed.task.stage → old.task = task →
      task = .fetching :=
    fun hold hchanged hstage htask => htask.symm.trans (hended hold hchanged hstage).1
  have hreads : ∀ {old : Record}, session.find? path = some old →
      old.loader.readsText = true := by
    intro old hold
    have hkept : Steps allowed session last := Relation.ReflTransGen.head (.move hmove) hlater
    obtain ⟨loader, hloader, htext⟩ := readsText_of_textFailed (hsteps.trans hkept) hfailed
    obtain rfl := Option.some.inj ((hkept.loaderOf (loaderOf_of_find? hold)).symm.trans hloader)
    exact htext
  rcases hmove with hturn | hlook
  · cases hturn with
    | call hfound hcalls =>
      cases hcalls with
      | fetch _ _ => exact Or.inl (by rw [path_of_find? hfound])
      | stylesheet _ hloader => exact absurd (hloader ▸ hreads hfound) (by simp [Loader.readsText])
      | custom _ hloader => exact absurd (hloader ▸ hreads hfound) (by simp [Loader.readsText])
      | firstStyle htask _ _ =>
        exact absurd (hleft hfound (find?_called hfound) (by simp [Task.stage]) htask) (by simp)
      | nextStyle htask _ =>
        exact absurd (hleft hfound (find?_called hfound) (by simp [Task.stage]) htask) (by simp)
    | link hfound _ _ _ _ =>
      -- this is the move that would request something, and it leads into the linking phase
      obtain ⟨-, _, htask⟩ := hended hfound (find?_linked hfound) (by simp [Task.stage])
      exact absurd htask (by simp)
    | execute hfound htask _ =>
      exact absurd (hleft hfound (find?_executed hfound) (by simp [Task.stage]) htask) (by simp)
    | abandon hfound htask _ _ _ =>
      exact absurd (hleft hfound (find?_abandoned hfound) (by simp [Task.stage]) htask) (by simp)
    | resolve hfound hyields _ =>
      exact absurd (hleft hfound (find?_resolved hfound) (by simp [Task.stage]) rfl)
        hyields.not_fetching
    | raise hfound _ =>
      obtain ⟨-, _, htask⟩ := hended hfound (find?_raised hfound) (by simp [Task.stage])
      obtain rfl := (Failure.mk.inj (Except.error.inj (Task.settled.inj htask))).2
      exact Or.inr rfl
    | inherit hfound htask _ =>
      exact absurd (hleft hfound (find?_setTask_self hfound) (by simp [Task.stage]) htask) (by simp)
    | @fill record _ _ hfound htask _ _ _ =>
      have hfits := tasksFit_of_start hsteps path record hfound
      rw [htask] at hfits
      exact absurd (hfits ▸ hreads hfound) (by simp [Loader.readsText])
    | follow hfound htask _ _ =>
      exact absurd (hleft hfound (find?_followed hfound) (by simp [Task.stage]) htask) (by simp)
  · cases hlook with
    | note hfound htask _ =>
      exact absurd (hleft hfound (find?_setTask_self hfound) (by simp [Task.stage]) htask) (by simp)

/-! ## The law -/

/-- **Errors are passed on.** Take any commands with any loaders. Behind every call that runs a
module stand the moment at which the module asked for its dependencies and the one at which it was
handed over, and by then every dependency that did not lead back to it when it asked has ended well.
The load of a built-in loader that has failed did so in one step, and the error is a new one which
that step raised, or the very error with which a dependency that the module waited for had ended or
had been refused. If the text of a module is refused, its load fails for that, and all that the
module does in the whole history is to fetch the text and to fail. -/
theorem error_propagation (config : Config) (host : Host) (closed : String → Bool)
    (commands : List Command) :
    let base := start config host closed
    let last := base.performAll commands
    let allowed := TakenBy commands
    (∀ (index : Nat) wrapper dependencies,
      last.log[index]? = some (.execute wrapper dependencies) →
      ∃ requested executed linking,
        Ran allowed base last index wrapper.path linking requested executed ∧
        ∀ specifier ∈ linking.requests.paths,
          requested.waits.leads (Path.resolve wrapper.path specifier) wrapper.path = false →
          ∃ content, executed.outcomeOf (.load (Path.resolve wrapper.path specifier)) =
            some (.ok content)) ∧
    (∀ path record failure, last.find? path = some record → record.loader.isBuiltIn = true →
      record.task = .settled (.error failure) →
      ∃ before ending, Fails allowed base last path failure before ending ∧
        FailureOrigin allowed base before path ending failure) ∧
    (∀ path source before after, Steps allowed base before → before.TextRefused path source →
      Move path before after → Steps allowed after last →
      last.outcomeOf (.load path) = some (.error ⟨before.failures, .transpile path source⟩) ∧
      ∀ mid next, Steps allowed base mid → Move path mid next → Steps allowed next last →
        next = (mid.call (.fetch path)).setTask path .fetching ∨
        next = mid.rejectWith path (.transpile path source)) := by
  intro base last allowed
  have hsteps : Steps allowed base last := performAll_steps allowed_takenBy base
  refine ⟨fun index wrapper dependencies hentry => ?_, fun path record failure hfound hbuiltIn =>
    fails_of_start hsteps hfound hbuiltIn, fun path source before after hbefore htext hmove
    hlater => ?_⟩
  · obtain ⟨linking, requested, executed, hran, -, -⟩ := ran_of_log hsteps hentry
    exact ⟨requested, executed, linking, hran, fun specifier hmem hfree => hran.arrived hmem hfree⟩
  · have hended : last.outcomeOf (.load path) =
        some (.error ⟨before.failures, .transpile path source⟩) := by
      refine hlater.outcomeOf (outcomeOf_load_eq_some.mpr ?_)
      obtain ⟨record, -, hfound, -⟩ := id htext
      rw [htext.rejected hmove]
      exact ⟨_, find?_raised hfound, rfl⟩
    exact ⟨hended, fun mid next hmid hnext hafter => hnext.of_textFailed hmid hafter ⟨_, hended⟩⟩

/-- The host of a module whose only import it does not have. -/
def missingImport : Host := ⟨[("a.js", "import './b.js'")], [], Host.exportOrigin, []⟩

/-- The importer of a missing module fails with the error of the fetch. -/
theorem importer_fails_with_its_import :
    let commands := [Command.load "./a.js" none]
    let base := start Config.default missingImport fun _ => false
    let last := base.performAll commands
    let failure := ⟨0, .host "404: b.js"⟩
    last.outcomeOf (.load "b.js") = some (.error failure) ∧
    ∃ before ending, Fails (TakenBy commands) base last "a.js" failure before ending ∧
      FailureOrigin (TakenBy commands) base before "a.js" ending failure := by
  intro commands base last failure
  have hfailed : ∀ path, (last.find? path).bind (·.task.failure?) = some failure →
      ∃ record, last.find? path = some record ∧ record.task = .settled (.error failure) := by
    intro path hpath
    obtain ⟨record, hfound, htask⟩ := Option.bind_eq_some_iff.mp hpath
    exact ⟨record, hfound, Task.failure?_eq_some.mp htask⟩
  have hbuiltIn : (last.find? "a.js").map (·.loader.isBuiltIn) = some true := by decide +kernel
  obtain ⟨record, hfound, htask⟩ := hfailed "a.js" (by decide +kernel)
  rw [hfound, Option.map_some, Option.some.injEq] at hbuiltIn
  have hlaw := error_propagation Config.default missingImport (fun _ => false) commands
  exact ⟨outcomeOf_load_eq_some.mpr (hfailed "b.js" (by decide +kernel)),
    hlaw.2.1 "a.js" record failure hfound hbuiltIn htask⟩

end Session

end ScriptLink
