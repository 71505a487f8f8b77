import ScriptLink.Proofs.Session.Ending
import ScriptLink.Proofs.Session.Order

/-!
# Loads end as they must

A session whose use is nothing but requests, gates and runs has no say in how its loads end. Every
record agrees with `Session.Ends` at every moment: a load that has ended has ended so, and a module
that is past its run was handed over with what its dependencies end with.

* **`Action.schedules`** — what a mere schedule may do.
* **`Linked`** — how a dependency stands in its linking phase, if nothing is put off.
* **`handedOver_of_linking`** — a module that waits for nothing any more is ready to be handed
  over, by what its dependencies agree with.
* **`agrees_of_start`** — the invariant, for hosts without failing gates and without cycles of
  imports.
-/

namespace ScriptLink

/-- Whether an action is a matter of order and time only: a request, or a change to a gate. -/
def Action.schedules : Action → Bool
  | .request _ _ | .openGate _ | .closeGate _ => true
  | _ => false

theorem Action.leavesSlots_of_schedules {action : Action} (h : action.schedules = true) :
    action.leavesSlots = true := by
  cases action <;> simp_all [Action.schedules, Action.leavesSlots]

theorem Imports.mono {exportsName : String} {held more : String → String → Prop}
    {loaderOf others : String → Option Loader} {importer dependency : String}
    (h : Imports exportsName held loaderOf importer dependency)
    (hheld : ∀ path text, held path text → more path text)
    (hloader : ∀ path loader, loaderOf path = some loader → others path = some loader) :
    Imports exportsName more others importer dependency := by
  obtain ⟨loader, text, script, specifier, hof, hreads, htext, hrest⟩ := h
  exact ⟨loader, text, script, specifier, hloader _ _ hof, hreads, hheld _ _ htext, hrest⟩

namespace Session

variable {session after : Session} {path : String} {record : Record} {config : Config}
  {host : Host} {closed : String → Bool}

/-- Steps of a session that is used by requests, gates and runs only. -/
abbrev ScheduleSteps : Session → Session → Prop := Steps fun action => action.schedules = true

/-- The import relation over resolved paths has no cycle: the texts are those of the host, and the
loaders are the built-in ones. -/
def AcyclicImports (config : Config) (host : Host) : Prop :=
  ∀ path, ¬ Relation.TransGen
    (Imports config.exportsName (fun path text => host.fetch path = .ok text) Loader.ofPath)
    path path

/-- A schedule leaves the texts and the loaders alone. -/
theorem schedule_surroundings (h : ScheduleSteps session after) :
    after.host = session.host ∧ after.loaders = session.loaders := by
  induction h with
  | refl => exact ⟨rfl, rfl⟩
  | tail _ hlast ih =>
    cases hlast with
    | move hmove => exact ⟨hmove.reworked.host.trans ih.1, hmove.reworked.loaders.trans ih.2⟩
    | settle _ _ => exact ih
    | @act action haction =>
      cases action with
      | request specifier referrer =>
        exact ⟨(grown_request _ specifier _).host.trans ih.1,
          (grown_request _ specifier _).loaders.trans ih.2⟩
      | openGate gate => exact ih
      | closeGate gate => exact ih
      | write name text => exact absurd haction (by simp [Action.schedules])
      | register suffix loader => exact absurd haction (by simp [Action.schedules])
      | sealSlot target content => exact absurd haction (by simp [Action.schedules])

/-! ## What it means to agree -/

/-- What a load has come to agrees with how it must end. -/
def TaskAgrees (config : Config) (host : Host) (path : String) : Task → Prop
  | .executing wrapper _ component => ∃ linking, HandedOver config host path linking ∧
      wrapper = linking.wrapper config path ∧ component = linking.component
  | .styling _ _ exports template => ∃ linking component, HandedOver config host path linking ∧
      linking.component = some component ∧ exports = host.execute (linking.wrapper config path) ∧
      template = component.template
  | .settled outcome => Ends config host path outcome.toOption
  | _ => True

/-- A record agrees with what its path says: in its loader, and in what its load has come to. -/
structure Agrees (config : Config) (host : Host) (path : String) (record : Record) : Prop where
  loader : Loader.ofPath path = some record.loader
  task : TaskAgrees config host path record.task

/-- All records agree. -/
abbrev AllAgree (config : Config) (host : Host) (session : Session) : Prop :=
  ∀ path record, session.find? path = some record → Agrees config host path record

/-- A load that has ended has ended as it must. -/
theorem AllAgree.ends {outcome : Outcome} (h : AllAgree config host session)
    (houtcome : session.outcomeOf (.load path) = some outcome) :
    Ends config host path outcome.toOption := by
  obtain ⟨record, hfound, hsettled⟩ := outcomeOf_load_eq_some.mp houtcome
  have htask := (h path record hfound).task
  rw [hsettled] at htask
  exact htask

/-- The loader of a record that agrees answers itself, and writes no slot before. -/
theorem Agrees.builtIn (h : Agrees config host path record) :
    record.loader.delegates = false ∧ record.loader ≠ .echo ∧
      ∀ custom, record.loader ≠ .custom custom := by
  rcases Loader.ofPath_cases h.loader with heq | heq | heq <;> rw [heq] <;> simp [Loader.delegates]

/-! ## The linking phase -/

/-- How a dependency stands that the module at `path` asked for and did not put off: refused, if
its suffix has no loader, or awaited, or arrived with the content that it ended with. -/
inductive Linked (path : String) (session : Session) (specifier : String) :
    Dependency → Prop where
  | refused {failure : Failure} (hunknown : Loaders.builtIn.find? specifier = none) :
      Linked path session specifier ⟨Path.resolve path specifier, .awaited (.refused failure)⟩
  | awaited (hknown : (Loaders.builtIn.find? specifier).isSome = true) :
      Linked path session specifier
        ⟨Path.resolve path specifier, .awaited (.load (Path.resolve path specifier))⟩
  | arrived {content : Content} (hknown : (Loaders.builtIn.find? specifier).isSome = true)
      (houtcome : session.outcomeOf (.load (Path.resolve path specifier)) =
        some (.ok content)) :
      Linked path session specifier ⟨Path.resolve path specifier, .arrived content⟩

section Linking

variable {linking : Linking} (hsteps : ScheduleSteps (start config host closed) session)
  (hagree : AllAgree config host session) (hfound : session.find? path = some record)
  (htask : record.task = .linking linking)

include hsteps hagree hfound htask

/-- **The dependencies of a module in its linking phase**: none has been put off, since an edge of
the wait graph is an import. -/
theorem linked_of_linking (hacyclic : AcyclicImports config host) :
    List.Forall₂ (Linked path session) linking.requests.paths linking.dependencies := by
  obtain ⟨requested, hasked⟩ := asked_of_start hsteps path record hfound linking htask
  have hloaders : requested.loaders = Loaders.builtIn := (schedule_surroundings hasked.reached).2
  have hloader : session.loaderOf path = some record.loader := loaderOf_of_find? hfound
  -- the loaders of the records are those of their paths, so these imports have no cycle either
  have hsession : ∀ name, ¬ Relation.TransGen (Imports config.exportsName
      (fun path text => host.fetch path = .ok text) session.loaderOf) name name := by
    refine fun name hcycle =>
      hacyclic name (Relation.TransGen.mono (fun _ _ himports => ?_) _ _ hcycle)
    refine himports.mono (fun _ _ => id) fun other loader hother => ?_
    obtain ⟨known, hknown, rfl⟩ := Option.map_eq_some_iff.mp hother
    exact (hagree other known hknown).loader
  have hfree : ∀ specifier ∈ linking.requests.paths,
      requested.waits.leads (Path.resolve path specifier) path = false := fun specifier hmem =>
    hasked.not_deferred (fun _ _ hwrite => absurd hwrite (by simp [Action.schedules]))
      (fun _ _ hfetch => hfetch) .refl hloader hsession hmem
  have hstanding := linksMatch_of_start hsteps path record hfound linking htask
  refine forall₂_imp_mem (.mp (fun _ _ => And.intro) hasked.judged hstanding) ?_
  rintro specifier hmem dependency - ⟨hjudged, hstands⟩
  have hnot : dependency.waiting ≠ .deferred := by
    rw [Ne, hjudged.deferred_iff, hjudged.path_eq, hfree specifier hmem]
    simp
  have hrefused := hjudged.refused_iff hnot
  rw [hloaders] at hrefused
  cases hstands with
  | refused => exact .refused (hrefused.mp ⟨_, rfl⟩)
  | recorded _ =>
    exact .awaited (Option.ne_none_iff_isSome.mp fun hnone => by simpa using hrefused.mpr hnone)
  | arrived houtcome =>
    refine .arrived (Option.ne_none_iff_isSome.mp fun hnone => ?_) houtcome
    simpa using hrefused.mpr hnone
  | deferred => exact absurd rfl hnot

/-- The text of a module in its linking phase is the one that its path reads. -/
theorem reads_of_linking :
    Reads config host path (some ⟨linking.script, linking.requests, linking.component⟩) := by
  obtain ⟨requested, hasked⟩ := asked_of_start hsteps path record hfound linking htask
  obtain ⟨text, hfetch, hscript, hrequests, hcomponent⟩ := hasked.text
  have hfits := tasksFit_of_start hsteps path record hfound
  rw [htask] at hfits
  have hhost : requested.host = host := (schedule_surroundings hasked.reached).1
  have hconfig : requested.config = config := hasked.reached.config
  rw [hhost] at hfetch
  rw [hconfig] at hscript
  refine ⟨record.loader, (hagree path record hfound).loader, hfits, ?_⟩
  unfold Loader.source?
  rw [hfetch]
  dsimp only
  rw [hscript, hrequests, hcomponent]

/-- **A module that waits for nothing any more is handed over as it must be.** -/
theorem handedOver_of_linking (hacyclic : AcyclicImports config host)
    (hready : linking.isWaiting = false) : HandedOver config host path linking := by
  have hlinked := linked_of_linking hsteps hagree hfound htask hacyclic
  have hnone : ∀ dependency ∈ linking.dependencies, ∀ request,
      dependency.waiting ≠ .awaited request := by
    intro dependency hmem request hwaiting
    have hwaits := isWaiting_iff.mpr ⟨dependency, hmem, request, hwaiting⟩
    exact absurd (hready.symm.trans hwaits) (by simp)
  have hslots : SlotsMatch session :=
    slotsMatch_of_start (fun _ => Action.leavesSlots_of_schedules) hsteps
  -- what the dependencies have ended with stands in their slots
  let contents (specifier : String) : Content :=
    (session.exports? (Path.resolve path specifier)).getD Content.emptyObject
  have harrived : List.Forall₂ (fun specifier dependency =>
      ((Loaders.builtIn.find? specifier).isSome = true ∧
        Ends config host (Path.resolve path specifier) (some (contents specifier))) ∧
      (⟨Path.resolve path specifier, .arrived (contents specifier)⟩ : Dependency) = dependency)
      linking.requests.paths linking.dependencies := by
    refine forall₂_imp_mem hlinked fun specifier _ dependency hmem hlink => ?_
    cases hlink with
    | refused _ => exact absurd rfl (hnone _ hmem _)
    | awaited _ => exact absurd rfl (hnone _ hmem _)
    | @arrived content hknown houtcome =>
      have hcontents : contents specifier = content := by
        show (session.exports? _).getD _ = content
        rw [hslots.exports?_eq_some.mpr houtcome]
        rfl
      rw [hcontents]
      exact ⟨⟨hknown, hagree.ends houtcome⟩, rfl⟩
  refine ⟨⟨linking.script, linking.requests, linking.component⟩, contents,
    reads_of_linking hsteps hagree hfound htask, fun specifier hmem => ?_, ?_⟩
  · obtain ⟨_, -, hends, -⟩ := forall₂_mem_left harrived hmem
    exact hends
  · have hmap : linking.requests.paths.map (fun specifier =>
        (⟨Path.resolve path specifier, .arrived (contents specifier)⟩ : Dependency)) =
        linking.dependencies := by
      refine List.forall₂_eq_eq_eq ▸ List.forall₂_map_left_iff.mpr ?_
      exact harrived.imp fun _ _ hlink => hlink.2
    unfold Source.arrived
    rw [hmap]

/-- A module that gives up must fail: it was refused a dependency, or one has failed. -/
theorem ends_of_abandon (hacyclic : AcyclicImports config host) {dependency : Dependency}
    {request : Request} {failure : Failure} (hmem : dependency ∈ linking.dependencies)
    (hwaiting : dependency.waiting = .awaited request)
    (hfailed : session.outcomeOf request = some (.error failure)) :
    Ends config host path none := by
  have hreads := reads_of_linking hsteps hagree hfound htask
  obtain ⟨specifier, hspecifier, hlink⟩ :=
    forall₂_mem_right (linked_of_linking hsteps hagree hfound htask hacyclic) hmem
  cases hlink with
  | refused hunknown => exact .unknown hreads hspecifier hunknown
  | awaited _ =>
    rw [← Waiting.awaited.inj hwaiting] at hfailed
    exact .failed hreads hspecifier (hagree.ends hfailed)
  | arrived _ _ => exact absurd hwaiting (by simp)

end Linking

/-! ## The invariant -/

theorem pass?_ne_error {call : HostCall} {message : String} (h : session.host.failures = []) :
    session.pass? call ≠ some (.error message) := by
  unfold pass?
  rw [h]
  split <;> simp

/-- A call is begun by a load that agrees, and the load agrees while it stands at the gate. -/
theorem Calls.agrees {call : HostCall} {task : Task} (h : Calls session record call task)
    (hhost : session.host = host) (hagrees : Agrees config host path record) :
    TaskAgrees config host path task := by
  have hold := hagrees.task
  cases h with
  | fetch _ _ => trivial
  | stylesheet _ _ => trivial
  | custom _ _ => trivial
  | firstStyle htask _ _ =>
    rw [htask] at hold
    obtain ⟨linking, hover, rfl, hcomponent⟩ := hold
    exact ⟨linking, _, hover, hcomponent.symm, by rw [hhost], rfl⟩
  | nextStyle htask _ =>
    rw [htask] at hold
    exact hold

/-- A script that has been run ends with what the host answered. -/
theorem ends_of_script {wrapper : Wrapper} {dependencies : List (String × Content)}
    (h : TaskAgrees config host path (.executing wrapper dependencies none)) :
    Ends config host path (some (host.execute wrapper)) := by
  obtain ⟨linking, hover, rfl, hcomponent⟩ := h
  have hends := hover.ends
  rw [Linking.content?, ← hcomponent] at hends
  exact hends

/-- A component that has been run ends with its template on the answer, if that can carry it. -/
theorem ends_of_component {wrapper : Wrapper} {dependencies : List (String × Content)}
    {component : Component}
    (h : TaskAgrees config host path (.executing wrapper dependencies (some component))) :
    Ends config host path
      (Component.withTemplate? component.template (host.execute wrapper)) := by
  obtain ⟨linking, hover, rfl, hcomponent⟩ := h
  have hends := hover.ends
  rw [Linking.content?, ← hcomponent] at hends
  exact hends

/-- The styles of a component make no difference to how it ends. -/
theorem ends_of_styles {css : String} {later : List String} {exports : Content}
    {template : Option String}
    (h : TaskAgrees config host path (.styling css later exports template)) :
    Ends config host path (Component.withTemplate? template exports) := by
  obtain ⟨linking, component, hover, hcomponent, rfl, rfl⟩ := h
  have hends := hover.ends
  rw [Linking.content?, hcomponent] at hends
  exact hends

/-- **What a load is about to end with is what it must end with.** -/
theorem Yields.ends {content : Content} (h : Yields session record content)
    (hpath : record.path = path) (hhost : session.host = host)
    (hfits : record.task.Fits record.loader) (hagrees : Agrees config host path record) :
    Ends config host path (some content) := by
  have hold := hagrees.task
  obtain ⟨hdirect, hecho, hcustom⟩ := hagrees.builtIn
  cases h with
  | echo _ hloader => exact absurd hloader hecho
  | script htask _ =>
    rw [htask] at hold
    rw [hhost]
    exact ends_of_script hold
  | component htask _ _ hattach =>
    rw [htask] at hold
    rw [hhost] at hattach
    exact hattach ▸ ends_of_component hold
  | styled htask _ hattach =>
    rw [htask] at hold
    exact hattach ▸ ends_of_styles hold
  | stylesheet htask _ =>
    rw [htask] at hfits
    have hloader := hagrees.loader
    rw [hfits] at hloader
    rw [hpath, hhost]
    exact .stylesheet hloader
  | custom htask _ _ _ =>
    rw [htask] at hfits
    exact absurd hfits (hcustom _)
  | following htask _ =>
    rw [htask] at hfits
    exact absurd (hdirect.symm.trans hfits) (by simp)

/-- **A load that fails by itself must fail.** -/
theorem Raises.ends {error : LoadError} (h : Raises session record error)
    (hpath : record.path = path) (hconfig : session.config = config)
    (hhost : session.host = host) (hfailures : host.failures = [])
    (hfits : record.task.Fits record.loader) (hslot : record.slot.get? = record.task.content?)
    (hagrees : Agrees config host path record) : Ends config host path none := by
  have hold := hagrees.task
  -- a text that its loader can make nothing of
  have hunreadable : record.task = .fetching → record.loader.source? config host path = none →
      Ends config host path none := by
    intro htask hnone
    rw [htask] at hfits
    exact .unreadable ⟨record.loader, hagrees.loader, hfits, hnone⟩
  cases h with
  | refused _ hpass => exact absurd hpass (pass?_ne_error (by rw [hhost, hfailures]))
  | missing htask _ hfetch =>
    refine hunreadable htask ?_
    rw [hpath, hhost] at hfetch
    rw [Loader.source?, hfetch]
  | transpile htask _ hfetch hscript =>
    refine hunreadable htask ?_
    rw [hpath, hhost] at hfetch
    rw [hconfig] at hscript
    rw [Loader.source?, hfetch]
    dsimp only
    rw [hscript]
  | bareComponent htask _ _ hattach =>
    rw [htask] at hold
    rw [hhost] at hattach
    exact hattach ▸ ends_of_component hold
  | styledComponent htask _ hattach =>
    rw [htask] at hold
    exact hattach ▸ ends_of_styles hold
  | custom htask _ _ _ =>
    rw [htask] at hfits
    exact absurd hfits (hagrees.builtIn.2.2 _)
  | customDuplicate htask _ _ _ =>
    rw [htask] at hfits
    exact absurd hfits (hagrees.builtIn.2.2 _)
  | duplicate hyields hsealed =>
    -- nobody else has written the slot of a load that has not ended
    rw [Task.content?_of_open hyields.outcome?_eq_none] at hslot
    refine absurd ?_ hsealed
    cases hkept : record.slot with
    | empty => rfl
    | sealed content =>
      rw [hkept] at hslot
      exact absurd hslot (by simp [Slot.get?])

/-- **A move keeps its module in agreement.** -/
theorem Moved.agrees {next : Record} (h : Moved path session after record next)
    (hsteps : ScheduleSteps (start config host closed) session)
    (hagree : AllAgree config host session) (hacyclic : AcyclicImports config host)
    (hfailures : host.failures = []) (hfound : session.find? path = some record) :
    Agrees config host path next := by
  have hagrees := hagree path record hfound
  have hconfig : session.config = config := hsteps.config
  have hhost : session.host = host := (schedule_surroundings hsteps).1
  have hpath := path_of_find? hfound
  have hfits := tasksFit_of_start hsteps path record hfound
  refine ⟨h.loader ▸ hagrees.loader, ?_⟩
  cases h with
  | call hcalls => exact hcalls.agrees hhost hagrees
  | link _ _ _ _ _ _ => trivial
  | note _ _ => trivial
  | @execute linking htask hready _ =>
    refine ⟨linking, ?_, by rw [hconfig], rfl⟩
    exact handedOver_of_linking hsteps hagree hfound htask hacyclic hready
  | abandon htask hmem hwaiting hfailed =>
    exact ends_of_abandon hsteps hagree hfound htask hacyclic hmem hwaiting hfailed
  | resolve hyields _ => exact hyields.ends hpath hhost hfits hagrees
  | raise hraises =>
    have hslots : SlotsMatch session :=
      slotsMatch_of_start (fun _ => Action.leavesSlots_of_schedules) hsteps
    exact hraises.ends hpath hconfig hhost hfailures hfits (hslots path record hfound) hagrees
  | inherit htask _ =>
    rw [htask] at hfits
    exact absurd (hagrees.builtIn.1.symm.trans hfits) (by simp)
  | fill htask _ _ _ =>
    rw [htask] at hfits
    exact absurd hfits (hagrees.builtIn.2.2 _)
  | follow htask _ _ _ =>
    rw [htask] at hfits
    exact absurd hfits (hagrees.builtIn.2.2 _)

/-- **Every load ends as it must**, in every state that a schedule leads to. -/
theorem agrees_of_start (hacyclic : AcyclicImports config host) (hfailures : host.failures = [])
    (h : ScheduleSteps (start config host closed) session) : AllAgree config host session := by
  induction h with
  | refl => exact fun _ _ hfound => absurd hfound (by simp [start, find?])
  | @tail session after hsteps hlast ih =>
    have hall := @Step.forall_records _ _ _
      (fun _ path record => record.path = path → Agrees config host path record) hlast
      (fun _ _ _ hold => hold) ?_
      (fun _ _ _ _ haction _ => absurd haction (by simp [Action.schedules]))
      (fun path record next _ hfound hmoved _ _ =>
        hmoved.agrees hsteps ih hacyclic hfailures hfound)
      (fun path record hfound _ => ih path record hfound)
    · exact fun path record hfound => hall path record hfound (path_of_find? hfound)
    · -- a new record has the loader of its path, whatever specifier it was requested by
      rintro _ record ⟨-, htask, specifier, referrer, hresolve, hloader⟩ rfl
      rw [(schedule_surroundings hsteps).2] at hloader
      refine ⟨hresolve ▸ Loader.ofPath_resolve hloader, ?_⟩
      rw [htask]
      trivial

end Session

end ScriptLink
