import ScriptLink.Proofs.Session.Sealing
import ScriptLink.Proofs.Session.Spelling

/-!
# Modules stay below the root

Every module names others by specifiers of its own choice, and its path is what they are resolved
against. A session in which all referrers from outside are grounded has canonical paths only: a
requested path is resolved against such a referrer, or against the path of a module that has been
recorded before.

A canonical path names itself from the top. But a request by this name gets the load that is
recorded only if the path has a suffix with a loader, and the specifier by which it was recorded
need not have ended in that suffix: a module in the directory `x` that asks for `js` gets the load
of `x/js`.

* **`Names`** — what a module asks for. **`Step.recorded_cases`** — the paths that a step records.
* **`Requested`** — what is asked for by anyone. `recorded_requested`: every recorded path has been
  asked for, by a specifier with a loader.
* **`CanonicalRecords`** — no recorded path has dots. Kept by steps (`CanonicalRecords.step`), and so
  true of every session (`canonicalRecords_of_start`).
* **`paths_stay_canonical`** — the law, for recorded paths and for those that the host is asked for,
  and `bare_name_is_refused_from_the_top` what is missing for all specifiers.
-/

namespace ScriptLink

/-- The host has held this text for the module at a path, at first or since it was written. -/
def Held (host : Host) (commands : List Command) (path text : String) : Prop :=
  host.fetch path = .ok text ∨ TakenBy commands (.write path text)

/-- Someone asks for a specifier from a referrer: a request from outside, the text of the module at
that path, or a registered loader at work for it. -/
inductive Requested (config : Config) (host : Host) (commands : List Command) :
    String → String → Prop where
  | asked {specifier : String} {referrer : Option String}
      (haction : TakenBy commands (.request specifier referrer)) :
      Requested config host commands (referrer.getD config.defaultReferrer) specifier
  | imported {path text specifier : String} {loader : Loader} {script : Script}
      (hheld : Held host commands path text)
      (hscript : transform config.exportsName (loader.take text).script = .ok script)
      (hmem : specifier ∈ (Linking.requestsOf (loader.take text).markers script.imports).paths) :
      Requested config host commands path specifier
  | target {path suffix target : String} {loader : CustomLoader}
      (haction : TakenBy commands (.register suffix (.custom loader)))
      (htarget : loader.target = some target) :
      Requested config host commands path target

/-- Whether a request names a grounded referrer, if it names one. -/
def Action.FromGrounded : Action → Prop
  | .request _ (some referrer) => Path.IsGrounded referrer
  | _ => True

namespace Session

variable {allowed : Action → Prop} {session after : Session} {path importer specifier : String}

/-- A module has been requested by this path. -/
def IsRecorded (session : Session) (path : String) : Prop :=
  path ∈ session.records.map Record.path

theorem isRecorded_iff : session.IsRecorded path ↔ (session.find? path).isSome = true := by
  rw [← Option.ne_none_iff_isSome, Ne, find?_eq_none_iff, not_not]
  rfl

/-! ## What is recorded -/

/-- A request records the resolved path, if the specifier has a loader. -/
theorem recorded_of_request {referrer : String}
    (h : (session.request specifier referrer).1.IsRecorded path) :
    session.IsRecorded path ∨ path = Path.resolve referrer specifier ∧
      (session.loaders.find? specifier).isSome = true := by
  unfold request at h
  split at h
  · exact .inl h
  · next loader hloader =>
    dsimp only at h
    split at h
    · exact .inl h
    · unfold IsRecorded at h
      rw [List.map_append] at h
      rcases List.mem_append.mp h with hold | hnew
      · exact .inl hold
      · exact .inr ⟨List.mem_singleton.mp hnew, by rw [hloader]; rfl⟩

theorem recorded_of_depend (h : (session.depend importer specifier).1.IsRecorded path) :
    session.IsRecorded path ∨ path = Path.resolve importer specifier ∧
      (session.loaders.find? specifier).isSome = true := by
  apply recorded_of_request
  unfold depend at h
  dsimp only at h
  split at h
  · exact h
  · exact h

/-- A module that asks for its dependencies records what its specifiers name. -/
theorem recorded_of_dependAll {specifiers : List String}
    (h : (session.dependAll importer specifiers).1.IsRecorded path) :
    session.IsRecorded path ∨ ∃ specifier ∈ specifiers,
      path = Path.resolve importer specifier ∧
        (session.loaders.find? specifier).isSome = true := by
  induction specifiers generalizing session with
  | nil => exact .inl h
  | cons first rest ih =>
    rcases ih h with hfirst | ⟨specifier, hmem, heq, hloader⟩
    · rcases recorded_of_depend hfirst with hold | hnew
      · exact .inl hold
      · exact .inr ⟨first, List.mem_cons_self, hnew⟩
    · have hsame := (grown_depend session importer first).loaders
      exact .inr ⟨specifier, List.mem_cons_of_mem _ hmem, heq, hsame ▸ hloader⟩

theorem isRecorded_setTask {name : String} {task : Task} :
    (session.setTask name task).IsRecorded path ↔ session.IsRecorded path := by
  unfold IsRecorded
  rw [map_path_setTask]

theorem isRecorded_setSlot {name : String} {slot : Slot} :
    (session.setSlot name slot).IsRecorded path ↔ session.IsRecorded path := by
  unfold IsRecorded
  rw [map_path_setSlot]

/-- The module at `importer` asks for `specifier`: its script or a marker does so, or it is what its
registered loader answers with. -/
inductive Names (session : Session) (importer : String) : String → Prop where
  | imports {record : Record} {text specifier : String} {script : Script}
      (hfound : session.find? importer = some record)
      (hfetch : session.host.fetch importer = .ok text)
      (hscript : transform session.config.exportsName (record.loader.take text).script = .ok script)
      (hmem : specifier ∈
        (Linking.requestsOf (record.loader.take text).markers script.imports).paths) :
      Names session importer specifier
  | target {record : Record} {loader : CustomLoader} {specifier : String}
      (hfound : session.find? importer = some record) (htask : record.task = .customizing loader)
      (htarget : loader.target = some specifier) :
      Names session importer specifier

/-- A module that moves records what it names, if anything. -/
theorem Move.recorded_cases (h : Move importer session after) (hrecorded : after.IsRecorded path) :
    session.IsRecorded path ∨
      ∃ specifier, session.Names importer specifier ∧ path = Path.resolve importer specifier ∧
        (session.loaders.find? specifier).isSome = true := by
  rcases h with hturn | hlook
  · cases hturn with
    | link hfound _ _ hfetch hscript =>
      rcases recorded_of_dependAll (isRecorded_setTask.mp hrecorded) with
        hold | ⟨specifier, hmem, heq⟩
      · exact .inl hold
      · exact .inr ⟨specifier, .imports hfound hfetch hscript hmem, heq⟩
    | @follow record loader target hfound htask _ htarget =>
      rcases recorded_of_request (isRecorded_setTask.mp hrecorded) with hold | heq
      · exact .inl hold
      · exact .inr ⟨target, .target hfound htask htarget, heq⟩
    | resolve _ _ _ => exact .inl (isRecorded_setSlot.mp (isRecorded_setTask.mp hrecorded))
    | fill _ _ _ _ _ => exact .inl (isRecorded_setSlot.mp hrecorded)
    | call _ _ => exact .inl (isRecorded_setTask.mp hrecorded)
    | execute _ _ _ => exact .inl (isRecorded_setTask.mp hrecorded)
    | abandon _ _ _ _ _ => exact .inl (isRecorded_setTask.mp hrecorded)
    | raise _ _ => exact .inl (isRecorded_setTask.mp hrecorded)
    | inherit _ _ _ => exact .inl (isRecorded_setTask.mp hrecorded)
  · cases hlook with
    | note _ _ _ => exact .inl (isRecorded_setTask.mp hrecorded)

/-- **What a step records** is named by a module that is recorded, or by a request from outside, and
has a loader by this name. -/
theorem Step.recorded_cases (h : Step allowed session after) (hrecorded : after.IsRecorded path) :
    session.IsRecorded path ∨
      (∃ importer specifier, session.IsRecorded importer ∧ session.Names importer specifier ∧
        path = Path.resolve importer specifier ∧
        (session.loaders.find? specifier).isSome = true) ∨
      ∃ specifier referrer, allowed (.request specifier referrer) ∧
        path = Path.resolve (referrer.getD session.config.defaultReferrer) specifier ∧
        (session.loaders.find? specifier).isSome = true := by
  cases h with
  | @move importer _ hmove =>
    rcases hmove.recorded_cases hrecorded with hold | ⟨specifier, hnames, heq⟩
    · exact .inl hold
    · obtain ⟨before, -, hbefore, -⟩ := hmove.reworked.own
      have himporter : session.IsRecorded importer := isRecorded_iff.mpr (by rw [hbefore]; rfl)
      exact .inr (.inl ⟨importer, specifier, himporter, hnames, heq⟩)
  | settle _ _ => exact .inl hrecorded
  | @act action haction =>
    cases action with
    | request specifier referrer =>
      rcases recorded_of_request hrecorded with hold | heq
      · exact .inl hold
      · exact .inr (.inr ⟨specifier, referrer, haction, heq⟩)
    | register suffix loader =>
      rcases act_register_cases session suffix loader with heq | ⟨_, _, -, -, heq⟩
      · exact .inl (heq ▸ hrecorded)
      · rw [heq] at hrecorded
        exact .inl hrecorded
    | sealSlot target content =>
      rcases act_sealSlot_cases session target content with heq | ⟨_, -, -, heq⟩
      · exact .inl (heq ▸ hrecorded)
      · rw [heq] at hrecorded
        exact .inl (isRecorded_setSlot.mp hrecorded)
    | openGate gate => exact .inl hrecorded
    | closeGate gate => exact .inl hrecorded
    | write name text => exact .inl hrecorded

/-! ## Who has asked for it -/

section Requested

variable {config : Config} {host : Host} {closed : String → Bool} {commands : List Command}

/-- What a module asks for is requested. -/
theorem Names.requested (h : session.Names importer specifier)
    (hsteps : Steps (TakenBy commands) (start config host closed) session) :
    Requested config host commands importer specifier := by
  cases h with
  | @imports record text _ script _ hfetch hscript hmem =>
    have hwritten : ∀ path text, TakenBy commands (.write path text) →
        Held host commands path text := fun _ _ haction => .inr haction
    have hbase : ∀ path text, (start config host closed).host.fetch path = .ok text →
        Held host commands path text := fun _ _ hfetch => .inl hfetch
    have hheld : Held host commands importer text := hsteps.fetch_held hwritten hbase hfetch
    rw [hsteps.config] at hscript
    exact .imported hheld hscript hmem
  | @target record loader _ hfound htask htarget =>
    -- the loader at work is one that was registered
    have hfits : record.task.Fits record.loader := tasksFit_of_start hsteps importer record hfound
    rw [htask] at hfits
    let good : Loader → Prop := fun loader => ∀ custom target, loader = .custom custom →
      custom.target = some target → Requested config host commands importer target
    have hbuiltIn : ∀ entry ∈ Loaders.builtIn, good entry.2 := by simp [good, Loaders.builtIn]
    have hregistered : ∀ suffix loader, TakenBy commands (.register suffix loader) → good loader :=
      fun _ _ haction _ _ heq htarget => .target (heq ▸ haction) htarget
    have hloaders : LoadersAre good session := loadersAre_of_start hbuiltIn hregistered hsteps
    exact hloaders.recorded importer record hfound loader specifier hfits htarget

/-- **Every recorded path has been asked for**, by a specifier that has a loader. -/
theorem recorded_requested
    (h : Steps (TakenBy commands) (start config host closed) session) :
    ∀ path, session.IsRecorded path → ∃ referrer specifier,
      Requested config host commands referrer specifier ∧
        path = Path.resolve referrer specifier ∧
        (session.loaders.find? specifier).isSome = true := by
  induction h with
  | refl => exact fun _ hmem => absurd hmem List.not_mem_nil
  | tail hsteps hlast ih =>
    intro path hrecorded
    rcases hlast.recorded_cases hrecorded with hold |
      ⟨importer, specifier, -, hnames, heq, hloader⟩ | ⟨specifier, referrer, haction, heq, hloader⟩
    · obtain ⟨referrer, specifier, hrequested, heq, hloader⟩ := ih path hold
      exact ⟨referrer, specifier, hrequested, heq, hlast.loaders_find? hloader⟩
    · exact ⟨importer, specifier, hnames.requested hsteps, heq, hlast.loaders_find? hloader⟩
    · rw [Steps.config hsteps] at heq
      exact ⟨_, specifier, .asked haction, heq, hlast.loaders_find? hloader⟩

/-- A path that is asked for by file names with extensions only has a loader itself. -/
theorem loaders_find?_of_requested
    (h : Steps (TakenBy commands) (start config host closed) session)
    (hrecorded : session.IsRecorded path)
    (hextensions : ∀ referrer specifier, Requested config host commands referrer specifier →
      Path.resolve referrer specifier = path → Path.HasExtension specifier) :
    (session.loaders.find? path).isSome = true := by
  obtain ⟨referrer, specifier, hrequested, rfl, hloader⟩ := recorded_requested h path hrecorded
  have hsuffix : Path.suffix (Path.resolve referrer specifier) = Path.suffix specifier :=
    Path.suffix_resolve (hextensions referrer specifier hrequested rfl)
  unfold Loaders.find? at hloader ⊢
  rw [hsuffix]
  exact hloader

end Requested

/-! ## The invariant -/

/-- No recorded path has dots. -/
def CanonicalRecords (session : Session) : Prop :=
  ∀ path, session.IsRecorded path → Path.IsCanonical path

theorem CanonicalRecords.step (h : CanonicalRecords session)
    (hdefault : Path.IsGrounded session.config.defaultReferrer)
    (hallowed : ∀ action, allowed action → action.FromGrounded)
    (hstep : Step allowed session after) : CanonicalRecords after := by
  intro path hrecorded
  rcases hstep.recorded_cases hrecorded with hold | ⟨importer, specifier, himporter, -, rfl, -⟩ |
    ⟨specifier, referrer, haction, rfl, -⟩
  · exact h path hold
  · -- the importer has a canonical path itself
    exact Path.isCanonical_resolve (h importer himporter).isGrounded specifier
  · apply Path.isCanonical_resolve
    cases referrer with
    | none => exact hdefault
    | some referrer => exact hallowed _ haction

theorem canonicalRecords_of_start {config : Config} {host : Host} {closed : String → Bool}
    (hdefault : Path.IsGrounded config.defaultReferrer)
    (hallowed : ∀ action, allowed action → action.FromGrounded)
    (h : Steps allowed (start config host closed) session) : CanonicalRecords session := by
  induction h with
  | refl => exact fun _ hmem => absurd hmem List.not_mem_nil
  | tail hsteps hlast ih =>
    refine ih.step ?_ hallowed hlast
    rw [Steps.config hsteps]
    exact hdefault

/-- What the host has been asked to start is recorded. -/
theorem isRecorded_of_started {config : Config} {host : Host} {closed : String → Bool}
    (h : Steps allowed (start config host closed) session) {call : HostCall}
    (hcall : call ∈ session.log.toList) (hstarted : call.started? = some path) :
    session.IsRecorded path := by
  have hstage := (logMatches_of_start h).stage_of_started path
    (List.mem_filterMap.mpr ⟨call, hcall, hstarted⟩)
  rw [isRecorded_iff]
  cases hfound : session.find? path with
  | some record => rfl
  | none =>
    unfold stageOf at hstage
    rw [hfound] at hstage
    exact absurd hstage (by decide)

/-- A module that is requested again by its own path is the module that is there, if the path has a
loader; otherwise the request is refused. -/
theorem request_here_iff (hrecorded : session.IsRecorded path)
    (hpath : Path.resolve "." path = path) :
    session.request path "." = (session, path, .load path) ↔
      (session.loaders.find? path).isSome = true := by
  constructor
  · intro hrequest
    exact isDispatched_iff.mp ⟨path, by rw [hrequest]⟩
  · intro hloader
    obtain ⟨loader, hfound⟩ := Option.isSome_iff_exists.mp hloader
    unfold request
    rw [hfound, hpath]
    exact if_pos (isRecorded_iff.mp hrecorded)

/-- **Paths stay canonical.** Take any session whose default referrer and whose referrers from
outside are grounded, whatever its modules contain. Every path that is recorded, or that the host is
asked for as a text or a style sheet, has no `.` and no `..`, so its file lies below the root,
whatever root that is. From the top it names itself. To request it again from there changes nothing
and is answered with the load that is recorded, if and only if the suffix of the path has a loader;
and it has one if all that ask for the path do so by file names with extensions. -/
theorem paths_stay_canonical (config : Config) (host : Host) (closed : String → Bool)
    (commands : List Command) (hdefault : Path.IsGrounded config.defaultReferrer)
    (hfrom : ∀ command ∈ commands, command.Allowed Action.FromGrounded) :
    let last := (start config host closed).performAll commands
    ∀ path, (last.find? path).isSome = true ∨ .fetch path ∈ last.log.toList ∨
        .stylesheet path ∈ last.log.toList →
      Path.IsCanonical path ∧ (∀ root, Path.IsBelow root (Trace.filePath root path)) ∧
        Path.resolve "." path = path ∧
        (last.request path "." = (last, path, .load path) ↔
          (last.loaders.find? path).isSome = true) ∧
        ((∀ referrer specifier, Requested config host commands referrer specifier →
            Path.resolve referrer specifier = path → Path.HasExtension specifier) →
          (last.loaders.find? path).isSome = true) := by
  intro last path hpath
  have hsteps : Steps Action.FromGrounded (start config host closed) last :=
    performAll_steps hfrom _
  have hrecorded : last.IsRecorded path := by
    rcases hpath with hfound | hfetch | hstyle
    · exact isRecorded_iff.mpr hfound
    · exact isRecorded_of_started hsteps hfetch rfl
    · exact isRecorded_of_started hsteps hstyle rfl
  have hcanonical : Path.IsCanonical path :=
    canonicalRecords_of_start hdefault (fun _ haction => haction) hsteps path hrecorded
  have hself := hcanonical.resolve_here
  exact ⟨hcanonical, fun root => hcanonical.isBelow_filePath root, hself,
    request_here_iff hrecorded hself,
    loaders_find?_of_requested (performAll_steps allowed_takenBy _) hrecorded⟩

/-- The host of a module that climbs further than its directories go. -/
def climbingModule : Host :=
  ⟨[("x/b.js", "import '../../.././c.css'")], [], Host.exportOrigin, []⟩

/-- The requests from outside: a module of a directory, seen from another one. -/
def climbingCommands : List Command := [.load "./a/../b.js" (some "././x/y.js")]

/-- The session that has loaded this module. -/
def climbingSession : Session :=
  (start Config.default climbingModule fun _ => false).performAll climbingCommands

/-- The path that a call asks for as a style sheet. -/
def styled? : HostCall → Option String
  | .stylesheet path => some path
  | _ => none

/-- A module that climbs out of the root arrives at the root. -/
theorem climbing_ends_at_the_root :
    Path.IsGrounded Config.default.defaultReferrer ∧
      (∀ command ∈ climbingCommands, command.Allowed Action.FromGrounded) ∧
      .stylesheet "c.css" ∈ climbingSession.log.toList ∧ Path.IsCanonical "c.css" := by
  have hdefault : Path.IsGrounded Config.default.defaultReferrer := by decide
  have hfrom : ∀ command ∈ climbingCommands, command.Allowed Action.FromGrounded := by
    intro command hmem
    obtain rfl := List.mem_singleton.mp hmem
    show Path.IsGrounded "././x/y.js"
    decide
  have hasked : climbingSession.log.toList.filterMap styled? = ["c.css"] := by decide +kernel
  obtain ⟨call, hcall, hstyled⟩ := List.mem_filterMap.mp (hasked ▸ List.mem_singleton_self _)
  cases call with
  | stylesheet path =>
    obtain rfl : path = "c.css" := Option.some.inj hstyled
    exact ⟨hdefault, hfrom, hcall, (paths_stay_canonical Config.default climbingModule
      (fun _ => false) climbingCommands hdefault hfrom _ (.inr (.inr hcall))).1⟩
  | _ => exact absurd hstyled (by simp [styled?])

/-- The host of a module that asks for its neighbour by a name without a dot. -/
def bareNeighbour : Host :=
  ⟨[("x/y.js", "import 'js';"), ("x/js", "export const a = 1;")], [], Host.exportOrigin, []⟩

/-- **A bare name is refused from the top.** The name `js` has the suffix of a script, so the module
gets the load of `x/js`. That path names itself from the top, but it has no suffix with a loader, so
the request for it is refused although it is recorded. -/
theorem bare_name_is_refused_from_the_top :
    let commands := [Command.load "x/y.js" none]
    let last := (start Config.default bareNeighbour fun _ => false).performAll commands
    Path.IsGrounded Config.default.defaultReferrer ∧
      (∀ command ∈ commands, command.Allowed Action.FromGrounded) ∧
      (last.find? "x/js").isSome = true ∧ Path.resolve "." "x/js" = "x/js" ∧
      ¬ (last.request "x/js" ".").2.2.IsDispatched := by
  intro commands last
  refine ⟨by decide, fun command hmem => ?_, by decide +kernel, by decide +kernel,
    fun hdispatched => ?_⟩
  · obtain rfl := List.mem_singleton.mp hmem
    trivial
  · exact absurd (isDispatched_iff.mp hdispatched) (by decide +kernel)

end Session

end ScriptLink
