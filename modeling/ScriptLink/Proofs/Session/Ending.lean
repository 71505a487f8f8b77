import ScriptLink.Proofs.Path
import ScriptLink.Proofs.Session.Turn

/-!
# How loads must end

With built-in loaders, no failing gates and no cycle of imports, how a load ends is a matter of
the texts and the host alone. Here this is written down without any session: a module ends by its
own text and by the way its dependencies end. That all sessions keep to it is shown in
`ScriptLink.Proofs.Session.Confluence`.

* **`Reads`** — what the loader of a path makes of its text, or that it can make nothing of it.
* **`Ends`** — how the load of a path ends: with a content, or with some error.
* **`HandedOver`** — a module as it is handed to the host, with the contents of its dependencies.
* **`Ends.unique`**, **`HandedOver.unique`** — there is one way to end, by induction over the
  imports.
-/

namespace ScriptLink

/-- The text of a module, taken apart: its script, what it asks for, and its component. -/
structure Source where
  script : Script
  requests : ImportMap
  component : Option Component

/-- The module at `path` once everything that it asked for has arrived. -/
def Source.arrived (source : Source) (path : String) (contents : String → Content) : Linking :=
  { script := source.script
    requests := source.requests
    dependencies := source.requests.paths.map fun specifier =>
      ⟨Path.resolve path specifier, .arrived (contents specifier)⟩
    component := source.component }

/-- What a loader makes of the text of the module at `path`: none if there is no text, or if its
script is malformed. -/
def Loader.source? (loader : Loader) (config : Config) (host : Host) (path : String) :
    Option Source :=
  match host.fetch path with
  | .error _ => none
  | .ok text =>
    match transform config.exportsName (loader.take text).script with
    | .error _ => none
    | .ok parsed =>
      some ⟨parsed, Linking.requestsOf (loader.take text).markers parsed.imports,
        (loader.take text).component⟩

/-- What a module ends with after its run: none if its exports cannot carry its template. -/
def Linking.content? (linking : Linking) (config : Config) (host : Host) (path : String) :
    Option Content :=
  match linking.component with
  | none => some (host.execute (linking.wrapper config path))
  | some component =>
    Component.withTemplate? component.template (host.execute (linking.wrapper config path))

namespace Session

variable {config : Config} {host : Host} {path : String}

/-- The module at `path` has a built-in loader that reads its text, and this is what the loader
makes of it. -/
def Reads (config : Config) (host : Host) (path : String) (source : Option Source) : Prop :=
  ∃ loader, Loader.ofPath path = some loader ∧ loader.readsText = true ∧
    loader.source? config host path = source

theorem Reads.unique {first second : Option Source} (h1 : Reads config host path first)
    (h2 : Reads config host path second) : first = second := by
  obtain ⟨loader, hloader, -, rfl⟩ := h1
  obtain ⟨other, hother, -, rfl⟩ := h2
  obtain rfl := Option.some.inj (hloader.symm.trans hother)
  rfl

theorem Reads.not_stylesheet {source : Option Source} (h : Reads config host path source) :
    Loader.ofPath path ≠ some .stylesheet := by
  obtain ⟨loader, hloader, hreads, -⟩ := h
  intro hstylesheet
  rw [hloader, Option.some.injEq] at hstylesheet
  rw [hstylesheet] at hreads
  exact absurd hreads (by simp [Loader.readsText])

/-- How the load of the module at `path` ends: with a content, or with an error. -/
inductive Ends (config : Config) (host : Host) : String → Option Content → Prop where
  | stylesheet {path : String} (hloader : Loader.ofPath path = some .stylesheet) :
      Ends config host path (some (host.stylesheet path))
  /-- there is no text, or it is malformed -/
  | unreadable {path : String} (hreads : Reads config host path none) :
      Ends config host path none
  /-- a dependency has no loader -/
  | unknown {path specifier : String} {source : Source}
      (hreads : Reads config host path (some source)) (hmem : specifier ∈ source.requests.paths)
      (hunknown : Loaders.builtIn.find? specifier = none) : Ends config host path none
  /-- a dependency ends with an error -/
  | failed {path specifier : String} {source : Source}
      (hreads : Reads config host path (some source)) (hmem : specifier ∈ source.requests.paths)
      (hfailed : Ends config host (Path.resolve path specifier) none) : Ends config host path none
  /-- all dependencies end well, and the module is run -/
  | run {path : String} {source : Source} {contents : String → Content}
      (hreads : Reads config host path (some source))
      (hknown : ∀ specifier ∈ source.requests.paths,
        (Loaders.builtIn.find? specifier).isSome = true)
      (harrived : ∀ specifier ∈ source.requests.paths,
        Ends config host (Path.resolve path specifier) (some (contents specifier))) :
      Ends config host path ((source.arrived path contents).content? config host path)

theorem Source.arrived_congr {source : Source} {first second : String → Content}
    (h : ∀ specifier ∈ source.requests.paths, first specifier = second specifier) :
    source.arrived path first = source.arrived path second := by
  unfold Source.arrived
  rw [List.map_congr_left fun specifier hmem => by rw [h specifier hmem]]

/-- **A load can end in one way only.** The induction is over the imports: the dependencies of a
module that is run end in one way each, so the module is handed over with the same contents. -/
theorem Ends.unique {first second : Option Content} (h1 : Ends config host path first)
    (h2 : Ends config host path second) : first = second := by
  induction h1 generalizing second with
  | stylesheet hloader =>
    -- a style sheet has no text that could be read
    cases h2 with
    | stylesheet _ => rfl
    | unreadable hreads => exact absurd hloader hreads.not_stylesheet
    | unknown hreads _ _ => exact absurd hloader hreads.not_stylesheet
    | failed hreads _ _ => exact absurd hloader hreads.not_stylesheet
    | run hreads _ _ => exact absurd hloader hreads.not_stylesheet
  | unreadable hreads =>
    cases h2 with
    | stylesheet hloader => exact absurd hloader hreads.not_stylesheet
    | run hother _ _ => exact absurd (hreads.unique hother) (by simp)
    | _ => rfl
  | unknown hreads hmem hunknown =>
    cases h2 with
    | stylesheet hloader => exact absurd hloader hreads.not_stylesheet
    | run hother hknown _ =>
      obtain rfl := Option.some.inj (hreads.unique hother)
      exact absurd hunknown (Option.ne_none_iff_isSome.mpr (hknown _ hmem))
    | _ => rfl
  | failed hreads hmem _ ih =>
    -- the dependency that failed cannot have arrived as well
    cases h2 with
    | stylesheet hloader => exact absurd hloader hreads.not_stylesheet
    | run hother _ harrived =>
      obtain rfl := Option.some.inj (hreads.unique hother)
      exact absurd (ih (harrived _ hmem)) (by simp)
    | _ => rfl
  | run hreads hknown _ ih =>
    cases h2 with
    | stylesheet hloader => exact absurd hloader hreads.not_stylesheet
    | unreadable hother => exact absurd (hreads.unique hother) (by simp)
    | unknown hother hmem hunknown =>
      obtain rfl := Option.some.inj (hreads.unique hother)
      exact absurd hunknown (Option.ne_none_iff_isSome.mpr (hknown _ hmem))
    | failed hother hmem hfailed =>
      obtain rfl := Option.some.inj (hreads.unique hother)
      exact absurd (ih _ hmem hfailed) (by simp)
    | run hother _ harrived =>
      obtain rfl := Option.some.inj (hreads.unique hother)
      rw [Source.arrived_congr fun specifier hmem =>
        Option.some.inj (ih specifier hmem (harrived specifier hmem))]

/-- `linking` is the module at `path` as it is handed to the host: all dependencies have arrived,
with the contents that they end with. -/
def HandedOver (config : Config) (host : Host) (path : String) (linking : Linking) : Prop :=
  ∃ source contents, Reads config host path (some source) ∧
    (∀ specifier ∈ source.requests.paths,
      (Loaders.builtIn.find? specifier).isSome = true ∧
      Ends config host (Path.resolve path specifier) (some (contents specifier))) ∧
    linking = source.arrived path contents

theorem HandedOver.ends {linking : Linking} (h : HandedOver config host path linking) :
    Ends config host path (linking.content? config host path) := by
  obtain ⟨source, contents, hreads, hall, rfl⟩ := h
  exact .run hreads (fun specifier hmem => (hall specifier hmem).1)
    fun specifier hmem => (hall specifier hmem).2

/-- **A module can be handed over in one way only.** -/
theorem HandedOver.unique {first second : Linking} (h1 : HandedOver config host path first)
    (h2 : HandedOver config host path second) : first = second := by
  obtain ⟨source, contents, hreads, hall, rfl⟩ := h1
  obtain ⟨other, others, hother, hotherall, rfl⟩ := h2
  obtain rfl := Option.some.inj (hreads.unique hother)
  exact Source.arrived_congr fun specifier hmem =>
    Option.some.inj ((hall specifier hmem).2.unique (hotherall specifier hmem).2)

theorem HandedOver.not_deferred {linking : Linking} (h : HandedOver config host path linking)
    {dependency : Dependency} (hmem : dependency ∈ linking.dependencies) :
    dependency.waiting ≠ .deferred := by
  obtain ⟨source, contents, -, -, rfl⟩ := h
  obtain ⟨specifier, -, rfl⟩ := List.mem_map.mp hmem
  simp

end Session

end ScriptLink
