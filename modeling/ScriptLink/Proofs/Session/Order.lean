import ScriptLink.Proofs.Session.History

/-!
# Dependencies before importers

When a module is handed to the host, it gets a map from paths to contents. Here it is shown what
the entries are: the content of a dependency that has ended well, or the empty object for one that
was put off, and then nothing had been written to the slot of that dependency yet. If the imports
have no cycle, nothing is put off, and modules are run in the order of their imports.

* **`mem_table`**, **`path_mem_table`** — what is in the map.
* **`EntryOrigin`** — the two ways in which an entry comes about.
* **`Imports`** — the import relation over resolved paths. `imports_of_leads`: a path in the wait
  graph is a path of imports, so without cycles of imports no dependency leads back.
* **`dependencies_before_importers`** — the law, for every call that runs a module.
-/

namespace ScriptLink

/-- `importer` imports `dependency`: a text that the importer may have asks for it. -/
def Imports (exportsName : String) (held : String → String → Prop)
    (loaderOf : String → Option Loader) (importer dependency : String) : Prop :=
  ∃ loader text script specifier, loaderOf importer = some loader ∧ loader.readsText = true ∧
    held importer text ∧ transform exportsName (loader.take text).script = .ok script ∧
    specifier ∈ (Linking.requestsOf (loader.take text).markers script.imports).paths ∧
    Path.resolve importer specifier = dependency

namespace Linking

/-! ## The map of dependencies -/

variable {exports? : String → Option Content} {dependencies : List Dependency}

theorem mem_insertEntry {path : String} {content : Content} {entries : List (String × Content)}
    {entry : String × Content} (h : entry ∈ insertEntry path content entries) :
    entry = (path, content) ∨ entry ∈ entries := by
  fun_induction insertEntry path content entries with
  | case1 => exact Or.inl (List.mem_singleton.mp h)
  | case2 old rest =>
    rcases List.mem_cons.mp h with rfl | hrest
    · exact Or.inl rfl
    · exact Or.inr (List.mem_cons_of_mem _ hrest)
  | case3 known old rest hne ih =>
    rcases List.mem_cons.mp h with rfl | hrest
    · exact Or.inr List.mem_cons_self
    · rcases ih hrest with rfl | hold
      · exact Or.inl rfl
      · exact Or.inr (List.mem_cons_of_mem _ hold)

/-- Inserting an entry adds its path and keeps the others. -/
theorem path_mem_insertEntry {path other : String} {content : Content}
    {entries : List (String × Content)} :
    other ∈ (insertEntry path content entries).map Prod.fst ↔
      other = path ∨ other ∈ entries.map Prod.fst := by
  fun_induction insertEntry path content entries with
  | case1 => simp
  | case2 old rest => simp
  | case3 known old rest hne ih =>
    rw [List.map_cons, List.mem_cons, ih, List.map_cons, List.mem_cons]
    constructor
    · rintro (hknown | hpath | hrest)
      · exact Or.inr (Or.inl hknown)
      · exact Or.inl hpath
      · exact Or.inr (Or.inr hrest)
    · rintro (hpath | hknown | hrest)
      · exact Or.inr (Or.inl hpath)
      · exact Or.inl hknown
      · exact Or.inr (Or.inr hrest)

/-- The entries of the dependencies that have arrived, behind those that are there. -/
def arrivals (entries : List (String × Content)) (dependencies : List Dependency) :
    List (String × Content) :=
  dependencies.foldl (fun entries dependency =>
    match dependency.waiting with
    | .arrived content => insertEntry dependency.path content entries
    | _ => entries) entries

/-- The entries of the dependencies that were put off, behind those that are there. -/
def deferrals (exports? : String → Option Content) (entries : List (String × Content))
    (dependencies : List Dependency) : List (String × Content) :=
  dependencies.foldl (fun entries dependency =>
    match dependency.waiting with
    | .deferred =>
      if (entries.lookup dependency.path).isSome then entries
      else entries ++ [(dependency.path, (exports? dependency.path).getD Content.emptyObject)]
    | _ => entries) entries

theorem table_eq : table exports? dependencies =
    deferrals exports? (arrivals [] dependencies) dependencies :=
  rfl

theorem mem_arrivals {entries : List (String × Content)} {entry : String × Content}
    (h : entry ∈ arrivals entries dependencies) : entry ∈ entries ∨
      ∃ dependency ∈ dependencies, dependency.path = entry.1 ∧
        dependency.waiting = .arrived entry.2 := by
  induction dependencies generalizing entries with
  | nil => exact Or.inl h
  | cons first rest ih =>
    rcases ih h with hold | ⟨dependency, hmem, hdependency⟩
    · dsimp only at hold
      split at hold
      · next content harrived =>
        rcases mem_insertEntry hold with rfl | hold
        · exact Or.inr ⟨first, List.mem_cons_self, rfl, harrived⟩
        · exact Or.inl hold
      · exact Or.inl hold
    · exact Or.inr ⟨dependency, List.mem_cons_of_mem _ hmem, hdependency⟩

theorem path_mem_arrivals {entries : List (String × Content)} {path : String}
    (h : path ∈ entries.map Prod.fst ∨
      ∃ dependency ∈ dependencies, dependency.path = path ∧
        ∃ content, dependency.waiting = .arrived content) :
    path ∈ (arrivals entries dependencies).map Prod.fst := by
  induction dependencies generalizing entries with
  | nil =>
    rcases h with hold | ⟨_, hmem, -⟩
    · exact hold
    · exact absurd hmem List.not_mem_nil
  | cons first rest ih =>
    refine ih ?_
    rcases h with hold | ⟨dependency, hmem, hpath, content, harrived⟩
    · refine Or.inl ?_
      dsimp only
      split
      · exact path_mem_insertEntry.mpr (Or.inr hold)
      · exact hold
    · rcases List.mem_cons.mp hmem with rfl | hrest
      · refine Or.inl ?_
        dsimp only
        rw [harrived]
        exact path_mem_insertEntry.mpr (Or.inl hpath.symm)
      · exact Or.inr ⟨dependency, hrest, hpath, content, harrived⟩

theorem mem_deferrals {entries : List (String × Content)} {entry : String × Content}
    (h : entry ∈ deferrals exports? entries dependencies) : entry ∈ entries ∨
      ∃ dependency ∈ dependencies, dependency.path = entry.1 ∧
        dependency.waiting = .deferred ∧
        entry.2 = (exports? entry.1).getD Content.emptyObject := by
  induction dependencies generalizing entries with
  | nil => exact Or.inl h
  | cons first rest ih =>
    rcases ih h with hold | ⟨dependency, hmem, hdependency⟩
    · dsimp only at hold
      split at hold
      · next hdeferred =>
        split at hold
        · exact Or.inl hold
        · rcases List.mem_append.mp hold with hold | hnew
          · exact Or.inl hold
          · obtain rfl := List.mem_singleton.mp hnew
            exact Or.inr ⟨first, List.mem_cons_self, rfl, hdeferred, rfl⟩
      · exact Or.inl hold
    · exact Or.inr ⟨dependency, List.mem_cons_of_mem _ hmem, hdependency⟩

theorem subset_deferrals {entries : List (String × Content)} {entry : String × Content}
    (h : entry ∈ entries) : entry ∈ deferrals exports? entries dependencies := by
  induction dependencies generalizing entries with
  | nil => exact h
  | cons first rest ih =>
    refine ih ?_
    dsimp only
    split
    · split
      · exact h
      · exact List.mem_append_left _ h
    · exact h

/-- **What is in the map**: an entry is of a dependency that has arrived, or of one that was put
off, which is read from its slot. -/
theorem mem_table {entry : String × Content} (h : entry ∈ table exports? dependencies) :
    ∃ dependency ∈ dependencies, dependency.path = entry.1 ∧
      (dependency.waiting = .arrived entry.2 ∨ (dependency.waiting = .deferred ∧
        entry.2 = (exports? entry.1).getD Content.emptyObject)) := by
  rw [table_eq] at h
  rcases mem_deferrals h with harrived | ⟨dependency, hmem, hpath, hdeferred, hvalue⟩
  · rcases mem_arrivals harrived with hnone | ⟨dependency, hmem, hpath, hwaiting⟩
    · exact absurd hnone List.not_mem_nil
    · exact ⟨dependency, hmem, hpath, Or.inl hwaiting⟩
  · exact ⟨dependency, hmem, hpath, Or.inr ⟨hdeferred, hvalue⟩⟩

/-- Every dependency that has arrived has an entry. -/
theorem path_mem_table {dependency : Dependency} {content : Content}
    (hmem : dependency ∈ dependencies) (harrived : dependency.waiting = .arrived content) :
    dependency.path ∈ (table exports? dependencies).map Prod.fst := by
  have hpath : dependency.path ∈ (arrivals [] dependencies).map Prod.fst :=
    path_mem_arrivals (Or.inr ⟨dependency, hmem, rfl, content, harrived⟩)
  obtain ⟨entry, hentry, heq⟩ := List.mem_map.mp hpath
  exact List.mem_map.mpr ⟨entry, subset_deferrals hentry, heq⟩

end Linking

namespace Session

variable {allowed : Action → Prop} {base requested executed session after last : Session}
  {path : String} {record : Record} {config : Config} {host : Host} {closed : String → Bool}

/-- The loader of a recorded module. -/
def loaderOf (session : Session) (path : String) : Option Loader :=
  (session.find? path).map (·.loader)

theorem loaderOf_of_find? (hfound : session.find? path = some record) :
    session.loaderOf path = some record.loader := by
  unfold loaderOf
  rw [hfound]
  rfl

theorem Steps.loaderOf {loader : Loader} (h : Steps allowed session last)
    (hloader : session.loaderOf path = some loader) : last.loaderOf path = some loader := by
  unfold Session.loaderOf at hloader ⊢
  obtain ⟨record, hfound, rfl⟩ := Option.map_eq_some_iff.mp hloader
  obtain ⟨kept, hkept, hsame, -⟩ := h.keeps hfound
  rw [hkept, Option.map_some, hsame]

theorem Steps.outcomeOf {outcome : Outcome} {request : Request}
    (h : Steps allowed session last) (houtcome : session.outcomeOf request = some outcome) :
    last.outcomeOf request = some outcome := by
  induction h with
  | refl => exact houtcome
  | tail _ hlast ih => exact hlast.outcomeOf ih

theorem slotsMatch_of_start (hallowed : ∀ action, allowed action → action.leavesSlots = true)
    (h : Steps allowed (start config host closed) session) : SlotsMatch session := by
  induction h with
  | refl => exact fun _ _ hfound => absurd hfound (by simp [start, find?])
  | tail hsteps hlast ih =>
    refine ih.step (tasksFit_of_start hsteps) ?_ hallowed hlast
    refine loadersAre_of_start (by simp [Loaders.builtIn, Loader.fills])
      (fun suffix loader haction => ?_) hsteps
    simpa [Action.leavesSlots] using hallowed _ haction

/-! ## Running a module -/

/-- Call number `index` of the log of `last` runs the module at `path`: the module asked for its
dependencies in `requested`, and it was handed to the host in `executed`, where it waited for
nothing any more. -/
structure Ran (allowed : Action → Prop) (base last : Session) (index : Nat) (path : String)
    (linking : Linking) (requested executed : Session) : Prop where
  reached : Steps allowed base executed
  asked : ∃ loader, Asked allowed base requested executed path loader linking ∧
    last.loaderOf path = some loader
  found : ∃ record, executed.find? path = some record ∧ record.task = .linking linking
  ready : linking.isWaiting = false
  size : executed.log.size = index
  later : Steps allowed (executed.execute path linking) last

theorem Ran.steps {index : Nat} {linking : Linking}
    (h : Ran allowed base last index path linking requested executed) :
    Steps allowed executed last := by
  obtain ⟨record, hfound, htask⟩ := h.found
  have hturn : Turn path executed (executed.execute path linking) :=
    .execute hfound htask h.ready
  exact Relation.ReflTransGen.head (.move (Or.inl hturn)) h.later

/-- How an entry of the map for `importer` has come about: the importer waited for the dependency,
which has ended well; or it did not, since the dependency led back to it when it asked, and then
nothing has been written to the dependency's slot. -/
inductive EntryOrigin (requested executed : Session) (importer : String) :
    String × Content → Prop where
  | waited {dependency : String} {content : Content}
      (hfree : requested.waits.leads dependency importer = false)
      (hended : executed.outcomeOf (.load dependency) = some (.ok content))
      (hsealed : executed.exports? dependency = some content) :
      EntryOrigin requested executed importer (dependency, content)
  | deferred {dependency : String}
      (hleads : requested.waits.leads dependency importer = true)
      (hempty : executed.exports? dependency = none) :
      EntryOrigin requested executed importer (dependency, Content.emptyObject)

/-- **Behind every call that runs a module stands its history.** -/
theorem ran_of_log (h : Steps allowed (start config host closed) last) {index : Nat}
    {wrapper : Wrapper} {dependencies : List (String × Content)}
    (hentry : last.log[index]? = some (.execute wrapper dependencies)) :
    ∃ linking requested executed,
      Ran allowed (start config host closed) last index wrapper.path linking requested executed ∧
      wrapper = linking.wrapper config wrapper.path ∧
      dependencies = Linking.table executed.exports? linking.dependencies := by
  obtain ⟨executed, after, hbefore, hstep, hlater, hsize, hpush⟩ :=
    h.find_push (Nat.zero_le index) hentry
  obtain ⟨record, linking, hfound, htask, hready, htable, hwrapper, rfl⟩ :=
    hstep.pushed_execute hpush
  obtain ⟨requested, hasked⟩ := asked_of_start hbefore wrapper.path record hfound linking htask
  have hloader := loaderOf_of_find? hfound
  have hsteps : Steps allowed executed last := Relation.ReflTransGen.head hstep hlater
  refine ⟨linking, requested, executed, ⟨hbefore, ⟨record.loader, hasked, hsteps.loaderOf hloader⟩,
    ⟨record, hfound, htask⟩, hready, hsize, hlater⟩, ?_, htable⟩
  rw [hbefore.config] at hwrapper
  exact hwrapper

theorem Ran.mono {more : Action → Prop} {index : Nat} {linking : Linking}
    (h : Ran allowed base last index path linking requested executed)
    (hsub : ∀ action, allowed action → more action) :
    Ran more base last index path linking requested executed := by
  obtain ⟨loader, hasked, hloader⟩ := h.asked
  exact ⟨h.reached.mono hsub, ⟨loader, hasked.mono hsub, hloader⟩, h.found, h.ready, h.size,
    h.later.mono hsub⟩

/-- Every entry of the map belongs to a request of the module. -/
theorem Ran.specifier_of_entry {index : Nat} {linking : Linking}
    (h : Ran allowed base last index path linking requested executed) {entry : String × Content}
    (hentry : entry ∈ Linking.table executed.exports? linking.dependencies) :
    ∃ specifier ∈ linking.requests.paths, entry.1 = Path.resolve path specifier := by
  obtain ⟨loader, hasked, -⟩ := h.asked
  obtain ⟨dependency, hmem, hpath, -⟩ := Linking.mem_table hentry
  obtain ⟨specifier, hspecifier, hjudged⟩ := forall₂_mem_right hasked.judged hmem
  exact ⟨specifier, hspecifier, hpath.symm.trans hjudged.path_eq⟩

/-- **Every entry of the map has come about in one of the two ways.** -/
theorem Ran.entryOrigin {index : Nat} {linking : Linking}
    (h : Ran allowed (start config host closed) last index path linking requested executed)
    (hallowed : ∀ action, allowed action → action.leavesSlots = true) {entry : String × Content}
    (hentry : entry ∈ Linking.table executed.exports? linking.dependencies) :
    EntryOrigin requested executed path entry := by
  obtain ⟨dependency, content⟩ := entry
  obtain ⟨loader, hasked, -⟩ := h.asked
  obtain ⟨record, hfound, htask⟩ := h.found
  have hslots := slotsMatch_of_start hallowed h.reached
  obtain ⟨noted, hmem, rfl, hwaiting | ⟨hdeferred, hvalue⟩⟩ := Linking.mem_table hentry
  · obtain ⟨specifier, -, hjudged⟩ := forall₂_mem_right hasked.judged hmem
    obtain ⟨_, -, hstanding⟩ := forall₂_mem_right
      (linksMatch_of_start h.reached path record hfound linking htask) hmem
    have hended : executed.outcomeOf (.load noted.path) = some (.ok content) := by
      cases hstanding with
      | arrived houtcome =>
        obtain rfl := Waiting.arrived.inj hwaiting
        exact houtcome
      | _ => exact absurd hwaiting (by simp)
    refine .waited ?_ hended (hslots.exports?_eq_some.mpr hended)
    rw [← Bool.not_eq_true, ← hjudged.deferred_iff, hwaiting]
    simp
  · obtain ⟨specifier, -, hjudged⟩ := forall₂_mem_right hasked.judged hmem
    -- what was put off is behind the module, and the module has not ended
    have hopen : NotEndedWell executed path := notEndedWell_of_task hfound (by rw [htask]; rfl)
    have hbehind := (hjudged.behind hdeferred).notEndedWell hopen
    have hempty : executed.exports? noted.path = none := by
      cases hexports : executed.exports? noted.path with
      | none => rfl
      | some content => exact absurd (hslots.exports?_eq_some.mp hexports) (hbehind content)
    dsimp only at hvalue
    rw [hvalue, hempty]
    exact .deferred (hjudged.deferred_iff.mp hdeferred) hempty

/-- **A dependency that has ended well was run before**, if it is run at all: a load that has
ended is handed to the host no more. -/
theorem Ran.earlier {index : Nat} {linking : Linking}
    (h : Ran allowed base last index path linking requested executed) {dependency : String}
    {content : Content} (hended : executed.outcomeOf (.load dependency) = some (.ok content))
    {place : Nat} {wrapper : Wrapper} {dependencies : List (String × Content)}
    (hentry : last.log[place]? = some (.execute wrapper dependencies))
    (hpath : wrapper.path = dependency) : place < index := by
  -- a later call would be made by a load in its linking phase, and this one has ended
  refine Nat.lt_of_not_le fun hle => ?_
  have hlow : executed.log.size ≤ place := h.size ▸ hle
  obtain ⟨before, after, hbefore, hstep, -, -, hpush⟩ := h.steps.find_push hlow hentry
  obtain ⟨other, otherLinking, hother, hlinking, -⟩ := hstep.pushed_execute hpush
  obtain ⟨kept, hkept, hsettled⟩ := outcomeOf_load_eq_some.mp (hbefore.outcomeOf hended)
  rw [hpath, hkept, Option.some.injEq] at hother
  rw [hother, hlinking] at hsettled
  exact absurd hsettled (by simp)

/-! ## Imports without cycles -/

/-- A module imports everything that it asked for. -/
theorem Asked.imports {held : String → String → Prop} {loader : Loader} {linking : Linking}
    (hasked : Asked allowed (start config host closed) requested session path loader linking)
    (hheld : ∀ text, requested.host.fetch path = .ok text → held path text)
    (hloader : last.loaderOf path = some loader) {specifier : String}
    (hmem : specifier ∈ linking.requests.paths) :
    Imports config.exportsName held last.loaderOf path (Path.resolve path specifier) := by
  obtain ⟨record, hfound, htask, rfl⟩ := hasked.fetching
  obtain ⟨text, hfetch, hscript, hrequests, -⟩ := hasked.text
  have hreads := tasksFit_of_start hasked.reached path record hfound
  rw [htask] at hreads
  have hconfig : requested.config = config := hasked.reached.config
  rw [hconfig] at hscript
  rw [hrequests] at hmem
  exact ⟨record.loader, text, linking.script, specifier, hloader, hreads, hheld text hfetch,
    hscript, hmem, rfl⟩

/-- **An edge of the wait graph is an import.** -/
theorem imports_of_edge {held : String → String → Prop}
    (hwritten : ∀ name text, allowed (.write name text) → held name text)
    (hbase : ∀ name text, host.fetch name = .ok text → held name text)
    (h : Steps allowed (start config host closed) session) (hlater : Steps allowed session last)
    {importer dependency : String} (hedge : (importer, dependency) ∈ session.waits.edges) :
    Imports config.exportsName held last.loaderOf importer dependency := by
  obtain ⟨record, linking, hfound, htask, noted, hmem, -, rfl⟩ :=
    linking_of_waitedFor (((waitsMatch_of_start h).edges importer dependency).mp hedge)
  obtain ⟨requested, hasked⟩ := asked_of_start h importer record hfound linking htask
  obtain ⟨specifier, hspecifier, hjudged⟩ := forall₂_mem_right hasked.judged hmem
  have hloader : session.loaderOf importer = some record.loader := loaderOf_of_find? hfound
  rw [hjudged.path_eq]
  exact hasked.imports (fun text hfetch => hasked.reached.fetch_held hwritten hbase hfetch)
    (hlater.loaderOf hloader) hspecifier

theorem imports_of_leads {held : String → String → Prop}
    (hwritten : ∀ name text, allowed (.write name text) → held name text)
    (hbase : ∀ name text, host.fetch name = .ok text → held name text)
    (h : Steps allowed (start config host closed) session) (hlater : Steps allowed session last)
    {first final : String} (hleads : session.waits.Leads first final) :
    Relation.ReflTransGen (Imports config.exportsName held last.loaderOf) first final := by
  induction hleads with
  | refl => exact .refl
  | step hedge _ ih =>
    exact Relation.ReflTransGen.head (imports_of_edge hwritten hbase h hlater hedge) ih

/-- **Without cycles of imports, nothing is put off**: no dependency led to the importer when it
was asked for. -/
theorem Asked.not_deferred {held : String → String → Prop}
    (hwritten : ∀ name text, allowed (.write name text) → held name text)
    (hbase : ∀ name text, host.fetch name = .ok text → held name text) {loader : Loader}
    {linking : Linking}
    (hasked : Asked allowed (start config host closed) requested session path loader linking)
    (hlater : Steps allowed session last) (hloader : last.loaderOf path = some loader)
    (hacyclic : ∀ name,
      ¬ Relation.TransGen (Imports config.exportsName held last.loaderOf) name name)
    {specifier : String} (hmem : specifier ∈ linking.requests.paths) :
    requested.waits.leads (Path.resolve path specifier) path = false := by
  -- otherwise the import and the way back would be a cycle of imports
  rw [WaitGraph.leads_eq_false_iff]
  intro hleads
  have himport : Imports config.exportsName held last.loaderOf path
      (Path.resolve path specifier) :=
    hasked.imports (fun text hfetch => hasked.reached.fetch_held hwritten hbase hfetch) hloader hmem
  have hback := imports_of_leads hwritten hbase hasked.reached (hasked.onward.trans hlater) hleads
  exact hacyclic path (Relation.TransGen.head' himport hback)

/-- A module that waits for nothing any more, and has put nothing off, has everything that it
asked for in its map. -/
theorem Ran.complete {index : Nat} {linking : Linking}
    (h : Ran allowed (start config host closed) last index path linking requested executed)
    {specifier : String} (hmem : specifier ∈ linking.requests.paths)
    (hfree : requested.waits.leads (Path.resolve path specifier) path = false) :
    Path.resolve path specifier ∈
      (Linking.table executed.exports? linking.dependencies).map Prod.fst := by
  obtain ⟨loader, hasked, -⟩ := h.asked
  obtain ⟨dependency, hdependency, hjudged⟩ := forall₂_mem_left hasked.judged hmem
  rw [← hjudged.path_eq] at hfree ⊢
  cases hwaiting : dependency.waiting with
  | awaited request =>
    have hwaits := isWaiting_iff.mpr ⟨dependency, hdependency, request, hwaiting⟩
    exact absurd (h.ready.symm.trans hwaits) (by simp)
  | arrived content => exact Linking.path_mem_table hdependency hwaiting
  | deferred =>
    rw [hjudged.deferred_iff.mp hwaiting] at hfree
    exact absurd hfree (by simp)

/-- Every run of the module at `dependency` comes before place `index` of the log, and there is one
if the module is a script or component. -/
def RunBefore (last : Session) (index : Nat) (dependency : String) : Prop :=
  (∀ (place : Nat) wrapper dependencies,
    last.log[place]? = some (.execute wrapper dependencies) → wrapper.path = dependency →
    place < index) ∧
  (∀ loader, last.loaderOf dependency = some loader → loader.readsText = true →
    RunInLog last dependency)

theorem Ran.runBefore {index : Nat} {linking : Linking}
    (h : Ran allowed (start config host closed) last index path linking requested executed)
    {dependency : String} {content : Content}
    (hended : executed.outcomeOf (.load dependency) = some (.ok content)) :
    RunBefore last index dependency := by
  refine ⟨fun place wrapper dependencies hentry hpath => h.earlier hended hentry hpath,
    fun loader hloader hreads => ?_⟩
  obtain ⟨record, hfound, hsettled⟩ :=
    outcomeOf_load_eq_some.mp (h.steps.outcomeOf hended)
  obtain rfl := Option.some.inj ((loaderOf_of_find? hfound).symm.trans hloader)
  exact hasRun_of_start (h.reached.trans h.steps) dependency record hfound hreads
    (by rw [hsettled]; rfl)

/-- **Dependencies before importers.** Take any session that is used by any commands, except that
slots are not written from outside or by loaders. For every call that runs a module there is the
moment at which the module asked for its dependencies and the one at which it was handed over, such
that every entry of its map is the content of a dependency that it waited for and that has ended
well, or the empty object for one that led back to it when it asked and whose slot is still empty;
and the dependencies that it waited for were run before.

If the imports have no cycle, then every entry is of the first kind, every import of the module has
an entry, and every import was run before the module. -/
theorem dependencies_before_importers (config : Config) (host : Host) (closed : String → Bool)
    (commands : List Command)
    (hslots : ∀ command ∈ commands, command.Allowed fun action => action.leavesSlots = true) :
    let base := start config host closed
    let last := base.performAll commands
    let held := fun path text => host.fetch path = .ok text ∨ .act (.write path text) ∈ commands
    ∀ (index : Nat) wrapper dependencies,
      last.log[index]? = some (.execute wrapper dependencies) →
      ∃ requested executed linking,
        Ran (fun action => action.leavesSlots = true) base last index wrapper.path linking
          requested executed ∧
        (∀ entry ∈ dependencies, EntryOrigin requested executed wrapper.path entry ∧
          (requested.waits.leads entry.1 wrapper.path = false → RunBefore last index entry.1)) ∧
        ((∀ path, ¬ Relation.TransGen (Imports config.exportsName held last.loaderOf) path path) →
          (∀ entry ∈ dependencies, requested.waits.leads entry.1 wrapper.path = false) ∧
          ∀ specifier ∈ linking.requests.paths,
            Path.resolve wrapper.path specifier ∈ dependencies.map Prod.fst ∧
            RunBefore last index (Path.resolve wrapper.path specifier)) := by
  intro base last held index wrapper dependencies hentry
  -- what is written is among the commands
  let allowed : Action → Prop := fun action =>
    action.leavesSlots = true ∧ ∀ name text, action = .write name text → held name text
  have hallowed : ∀ command ∈ commands, command.Allowed allowed := by
    intro command hmem
    have hleaves := hslots command hmem
    cases command with
    | act action =>
      exact ⟨hleaves, fun name text heq => Or.inr (heq ▸ hmem)⟩
    | run => trivial
    | load specifier referrer => exact ⟨rfl, fun name text heq => absurd heq (by simp)⟩
  have hsteps : Steps allowed base last := performAll_steps hallowed base
  obtain ⟨linking, requested, executed, hran, -, rfl⟩ := ran_of_log hsteps hentry
  have hwritten : ∀ name text, allowed (.write name text) → held name text :=
    fun name text haction => haction.2 name text rfl
  have hbase : ∀ name text, host.fetch name = .ok text → held name text :=
    fun name text hfetch => Or.inl hfetch
  have horigin : ∀ entry ∈ Linking.table executed.exports? linking.dependencies,
      EntryOrigin requested executed wrapper.path entry :=
    fun entry hmem => hran.entryOrigin (fun _ haction => haction.1) hmem
  have hbefore : ∀ entry ∈ Linking.table executed.exports? linking.dependencies,
      requested.waits.leads entry.1 wrapper.path = false → RunBefore last index entry.1 := by
    intro entry hmem hfree
    cases horigin entry hmem with
    | waited _ hended _ => exact hran.runBefore hended
    | deferred hleads _ => exact absurd (hfree.symm.trans hleads) (by simp)
  refine ⟨requested, executed, linking, hran.mono fun _ haction => haction.1,
    fun entry hmem => ⟨horigin entry hmem, hbefore entry hmem⟩, fun hacyclic => ?_⟩
  have hfree : ∀ specifier ∈ linking.requests.paths,
      requested.waits.leads (Path.resolve wrapper.path specifier) wrapper.path = false := by
    obtain ⟨loader, hasked, hloader⟩ := hran.asked
    exact fun specifier hmem =>
      hasked.not_deferred hwritten hbase hran.steps hloader hacyclic hmem
  refine ⟨fun entry hmem => ?_, fun specifier hmem => ?_⟩
  · obtain ⟨specifier, hspecifier, heq⟩ := hran.specifier_of_entry hmem
    rw [heq]
    exact hfree specifier hspecifier
  · have hin := hran.complete hmem (hfree specifier hmem)
    obtain ⟨entry, hentry, heq⟩ := List.mem_map.mp hin
    refine ⟨hin, ?_⟩
    rw [← heq]
    exact hbefore entry hentry (heq ▸ hfree specifier hmem)

/-! A module that imports another one, which imports nothing. -/

/-- The host of two modules, of which the first imports the second. -/
def importingPair : Host := ⟨[("a.js", "import './b.js'"), ("b.js", "")], [], Host.exportOrigin, []⟩

/-- The path of the module that a call runs, and the paths in its map. -/
def mapped? : HostCall → Option (String × List String)
  | .execute wrapper dependencies => some (wrapper.path, dependencies.map Prod.fst)
  | _ => none

/-- What a text asks for, taken apart by a loader. -/
def specifiers? (text : String) (loader : Loader) : Option (List String) :=
  (transform Config.default.exportsName (loader.take text).script).toOption.map fun script =>
    (Linking.requestsOf (loader.take text).markers script.imports).paths

/-- The imports of the two modules have no cycle, since there is only one. -/
theorem importingPair_acyclic {held : String → String → Prop} {loaderOf : String → Option Loader}
    (hheld : ∀ path text, held path text → importingPair.fetch path = .ok text)
    (hfirst : (loaderOf "a.js").bind (specifiers? "import './b.js'") = some ["./b.js"])
    (hsecond : (loaderOf "b.js").bind (specifiers? "") = some []) (path : String) :
    ¬ Relation.TransGen (Imports Config.default.exportsName held loaderOf) path path := by
  have hall : ∀ {importer dependency : String},
      Imports Config.default.exportsName held loaderOf importer dependency →
      importer = "a.js" ∧ dependency = "b.js" := by
    rintro importer dependency ⟨loader, text, script, specifier, hloader, hreads, htext, hscript,
      hmem, rfl⟩
    have hspecifiers : specifiers? text loader =
        some (Linking.requestsOf (loader.take text).markers script.imports).paths := by
      unfold specifiers?
      rw [hscript]
      rfl
    have hfetch := hheld importer text htext
    by_cases ha : importer = "a.js"
    · subst ha
      obtain rfl : "import './b.js'" = text := Except.ok.inj hfetch
      rw [hloader, Option.bind_some, hspecifiers, Option.some.injEq] at hfirst
      rw [hfirst, List.mem_singleton] at hmem
      exact ⟨rfl, by rw [hmem]; decide +kernel⟩
    · by_cases hb : importer = "b.js"
      · subst hb
        obtain rfl : "" = text := Except.ok.inj hfetch
        rw [hloader, Option.bind_some, hspecifiers, Option.some.injEq] at hsecond
        rw [hsecond] at hmem
        exact absurd hmem List.not_mem_nil
      · simp [Host.fetch, importingPair, List.lookup_cons, beq_false_of_ne ha,
          beq_false_of_ne hb] at hfetch
  intro hcycle
  obtain ⟨next, hedge, hback⟩ := Relation.TransGen.head'_iff.mp hcycle
  obtain ⟨rfl, rfl⟩ := hall hedge
  rcases Relation.ReflTransGen.cases_head hback with heq | ⟨other, hother, -⟩
  · exact absurd heq (by decide)
  · exact absurd (hall hother).1 (by decide)

/-- The module that is imported is run first. -/
theorem import_is_run_first :
    let commands := [Command.load "./a.js" none]
    let last := (start Config.default importingPair fun _ => false).performAll commands
    (∀ command ∈ commands, command.Allowed fun action => action.leavesSlots = true) ∧
    ∃ wrapper dependencies, last.log[3]? = some (.execute wrapper dependencies) ∧
      wrapper.path = "a.js" ∧ RunBefore last 3 "b.js" := by
  intro commands last
  have hslots : ∀ command ∈ commands,
      command.Allowed fun action => action.leavesSlots = true := by
    simp [commands, Command.Allowed, Action.leavesSlots]
  -- the last call runs the importer, and its map has one entry
  have hcall : last.log[3]?.bind mapped? = some ("a.js", ["b.js"]) := by decide +kernel
  obtain ⟨call, hentry, hmapped⟩ := Option.bind_eq_some_iff.mp hcall
  have hacyclic : ∀ path, ¬ Relation.TransGen (Imports Config.default.exportsName
      (fun path text => importingPair.fetch path = .ok text ∨
        Command.act (.write path text) ∈ commands) last.loaderOf) path path :=
    importingPair_acyclic (by simp [commands]) (by decide +kernel) (by decide +kernel)
  cases call with
  | execute wrapper dependencies =>
    obtain ⟨hpath, hkeys⟩ := Prod.mk.inj (Option.some.inj hmapped)
    obtain ⟨requested, executed, linking, -, hentries, himports⟩ :=
      dependencies_before_importers Config.default importingPair (fun _ => false) commands hslots 3
        wrapper dependencies hentry
    obtain ⟨entry, hmem, hname⟩ : ∃ entry ∈ dependencies, entry.1 = "b.js" :=
      List.mem_map.mp (hkeys ▸ List.mem_singleton_self _)
    exact ⟨hslots, wrapper, dependencies, hentry, hpath,
      hname ▸ (hentries entry hmem).2 ((himports hacyclic).1 entry hmem)⟩
  | _ => exact absurd hmapped (by simp [mapped?])

end Session

end ScriptLink
