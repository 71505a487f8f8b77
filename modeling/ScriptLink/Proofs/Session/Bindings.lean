import ScriptLink.Proofs.ImportOrder
import ScriptLink.Proofs.Session.Order

/-!
# What a host gets to run a module

A module is handed to the host with a map of contents and a list of bindings. The map has one entry
for each path that the module depends on, whether it waited for the dependency or not, and the
bindings are those of the markers and import statements of its text, each attached to the path that
its own specifier names.

* **`Linking.nodup_table`**, **`Linking.mem_paths_table_iff`** — the paths of the map: one entry per
  path, and one for every dependency that nothing waits for any more.
* **`Asked.links_eq`** — the bindings of a module that has asked for its dependencies.
* **`host_gets_every_binding`** — the contract, for every call that runs a module.
-/

namespace ScriptLink

namespace Linking

variable {exports? : String → Option Content} {dependencies : List Dependency} {path : String}

/-! ## The paths of the map -/

theorem nodup_insertEntry {content : Content} {entries : List (String × Content)}
    (h : (entries.map Prod.fst).Nodup) :
    ((insertEntry path content entries).map Prod.fst).Nodup := by
  fun_induction insertEntry path content entries with
  | case1 => exact List.pairwise_singleton _ path
  | case2 old rest => exact h
  | case3 known old rest hne ih =>
    rw [List.map_cons, List.nodup_cons] at h ⊢
    refine ⟨fun hmem => ?_, ih h.2⟩
    rcases path_mem_insertEntry.mp hmem with heq | hrest
    · exact hne heq
    · exact h.1 hrest

theorem nodup_arrivals {entries : List (String × Content)} (h : (entries.map Prod.fst).Nodup) :
    ((arrivals entries dependencies).map Prod.fst).Nodup := by
  induction dependencies generalizing entries with
  | nil => exact h
  | cons first rest ih =>
    refine ih ?_
    dsimp only
    split
    · exact nodup_insertEntry h
    · exact h

theorem mem_paths_of_lookup {entries : List (String × Content)} :
    (entries.lookup path).isSome = true ↔ path ∈ entries.map Prod.fst := by
  induction entries with
  | nil => simp
  | cons entry rest ih =>
    rw [List.lookup_cons, List.map_cons, List.mem_cons, ← ih]
    split
    · next heq => exact iff_of_true rfl (.inl (eq_of_beq heq))
    · next hne => exact (or_iff_right (ne_of_beq_false hne)).symm

theorem nodup_deferrals {entries : List (String × Content)} (h : (entries.map Prod.fst).Nodup) :
    ((deferrals exports? entries dependencies).map Prod.fst).Nodup := by
  induction dependencies generalizing entries with
  | nil => exact h
  | cons first rest ih =>
    refine ih ?_
    dsimp only
    split
    · split
      · exact h
      · next hnew =>
        rw [mem_paths_of_lookup] at hnew
        rw [List.map_append, List.map_singleton, ← List.concat_eq_append]
        exact h.concat hnew
    · exact h

/-- The map has one entry per path. -/
theorem nodup_table : ((table exports? dependencies).map Prod.fst).Nodup := by
  rw [table_eq]
  exact nodup_deferrals (nodup_arrivals .nil)

theorem path_mem_deferrals {entries : List (String × Content)} {dependency : Dependency}
    (hmem : dependency ∈ dependencies) (hdeferred : dependency.waiting = .deferred) :
    dependency.path ∈ (deferrals exports? entries dependencies).map Prod.fst := by
  induction dependencies generalizing entries with
  | nil => exact absurd hmem List.not_mem_nil
  | cons first rest ih =>
    rcases List.mem_cons.mp hmem with rfl | hrest
    · -- the entry is made here, unless there is one, and it stays
      have hkeep : ∀ {kept : List (String × Content)}, dependency.path ∈ kept.map Prod.fst →
          dependency.path ∈ (deferrals exports? kept rest).map Prod.fst := by
        intro kept hkept
        obtain ⟨entry, hentry, heq⟩ := List.mem_map.mp hkept
        exact List.mem_map.mpr ⟨entry, subset_deferrals hentry, heq⟩
      refine hkeep ?_
      dsimp only
      rw [hdeferred]
      dsimp only
      split
      · next hknown => exact mem_paths_of_lookup.mp hknown
      · rw [List.map_append]
        exact List.mem_append_right _ (List.mem_singleton_self _)
    · exact ih hrest

/-- **The paths of the map** are those of the dependencies, once nothing is waited for. -/
theorem mem_paths_table_iff {linking : Linking} (hready : linking.isWaiting = false) :
    path ∈ (table exports? linking.dependencies).map Prod.fst ↔
      ∃ dependency ∈ linking.dependencies, dependency.path = path := by
  constructor
  · intro hmem
    obtain ⟨entry, hentry, rfl⟩ := List.mem_map.mp hmem
    obtain ⟨dependency, hdependency, hpath, -⟩ := mem_table hentry
    exact ⟨dependency, hdependency, hpath⟩
  · rintro ⟨dependency, hdependency, rfl⟩
    cases hwaiting : dependency.waiting with
    | awaited request =>
      have hwaits := Session.isWaiting_iff.mpr ⟨dependency, hdependency, request, hwaiting⟩
      exact absurd (hready.symm.trans hwaits) (by simp)
    | arrived content => exact path_mem_table hdependency hwaiting
    | deferred => exact path_mem_deferrals hdependency hwaiting

/-! ## The bindings -/

/-- The links of a module, if its dependencies stand where its specifiers lead to. -/
theorem links_eq {linking : Linking} {importer : String}
    (h : List.Forall₂ (fun specifier (dependency : Dependency) =>
      dependency.path = Path.resolve importer specifier)
      linking.requests.paths linking.dependencies) :
    linking.links = linking.requests.flatMap fun entry =>
      entry.2.map (Link.ofBinding (Path.resolve importer entry.1)) := by
  obtain ⟨script, requests, dependencies, component⟩ := linking
  unfold links
  dsimp only at h ⊢
  induction requests generalizing dependencies with
  | nil => rfl
  | cons entry rest ih =>
    cases h with
    | cons hpath hrest =>
      rw [List.zip_cons_cons, List.flatMap_cons, List.flatMap_cons, ih _ hrest]
      dsimp only
      rw [hpath]

end Linking

namespace Session

variable {allowed : Action → Prop} {base requested executed session last : Session}
  {path : String} {linking : Linking}

/-- **The bindings of a module that has asked for its dependencies** are those of its markers and of
its import statements, collected by specifier. -/
theorem Asked.links_eq {loader : Loader}
    (h : Asked allowed base requested session path loader linking) :
    ∃ text stream statements, requested.host.fetch path = .ok text ∧
      tokenize (loader.take text).script = .ok stream ∧
      stream.classify.ImportsBefore stream.size statements ∧
      let entries := (loader.take text).markers.map Marker.entry ++ statements.map (·.2.entry)
      linking.requests.paths = (entries.map Prod.fst).eraseDups ∧
      linking.links = (entries.map Prod.fst).eraseDups.flatMap fun specifier =>
        (ImportMap.boundBy entries specifier).map (Link.ofBinding (Path.resolve path specifier)) := by
  obtain ⟨text, hfetch, hscript, hrequests, -⟩ := h.text
  obtain ⟨stream, statements, htokens, hstatements, himports⟩ := imports_of_transform hscript
  rw [himports, Linking.requestsOf_collect] at hrequests
  refine ⟨text, stream, statements, hfetch, htokens, hstatements, ?_, ?_⟩
  · rw [hrequests, ImportMap.paths_collect]
  · rw [Linking.links_eq (h.judged.imp fun _ _ hjudged => hjudged.path_eq), hrequests,
      ImportMap.collect_eq, List.flatMap_map]

/-- **What the host gets.** Take any session that is used by any commands, and any call that runs a
module. There is a text that the module had when it asked for its dependencies. Its markers, and then
the import statements of its script in the order of the source, are entries: a specifier, and the
names that are bound from it. The map that comes with the call has exactly one entry for each path
that a specifier resolves to. The wrapper binds, for each specifier where it is seen first, the names
of all its entries, in order, and each from the path that the specifier resolves to; so every name is
bound from a path that the map has. -/
theorem host_gets_every_binding (config : Config) (host : Host) (closed : String → Bool)
    (commands : List Command) :
    let base := start config host closed
    let last := base.performAll commands
    ∀ (index : Nat) wrapper dependencies,
      last.log[index]? = some (.execute wrapper dependencies) →
      ∃ requested executed linking loader text stream statements,
        Ran (fun _ => True) base last index wrapper.path linking requested executed ∧
        last.loaderOf wrapper.path = some loader ∧
        requested.host.fetch wrapper.path = .ok text ∧
        tokenize (loader.take text).script = .ok stream ∧
        stream.classify.ImportsBefore stream.size statements ∧
        let entries := (loader.take text).markers.map Marker.entry ++ statements.map (·.2.entry)
        let specifiers := (entries.map Prod.fst).eraseDups
        (dependencies.map Prod.fst).Nodup ∧
        (∀ path, path ∈ dependencies.map Prod.fst ↔
          ∃ specifier ∈ specifiers, Path.resolve wrapper.path specifier = path) ∧
        (∀ link ∈ wrapper.links, link.source ∈ dependencies.map Prod.fst) ∧
        wrapper.links = specifiers.flatMap fun specifier =>
          (ImportMap.boundBy entries specifier).map
            (Link.ofBinding (Path.resolve wrapper.path specifier)) := by
  intro base last index wrapper dependencies hentry
  have hsteps : Steps (fun _ => True) base last := performAll_steps allowed_of_all base
  obtain ⟨linking, requested, executed, hran, hwrapper, rfl⟩ := ran_of_log hsteps hentry
  obtain ⟨loader, hasked, hloader⟩ := hran.asked
  obtain ⟨text, stream, statements, hfetch, htokens, hstatements, hpaths, hlinks⟩ := hasked.links_eq
  have hlinks' : wrapper.links = linking.links := by
    rw [hwrapper]
    rfl
  have hmem : ∀ path, path ∈ (Linking.table executed.exports? linking.dependencies).map Prod.fst ↔
      ∃ specifier ∈ linking.requests.paths, Path.resolve wrapper.path specifier = path := by
    intro path
    rw [Linking.mem_paths_table_iff hran.ready]
    constructor
    · rintro ⟨dependency, hdependency, rfl⟩
      obtain ⟨specifier, hspecifier, hjudged⟩ := forall₂_mem_right hasked.judged hdependency
      exact ⟨specifier, hspecifier, hjudged.path_eq.symm⟩
    · rintro ⟨specifier, hspecifier, rfl⟩
      obtain ⟨dependency, hdependency, hjudged⟩ := forall₂_mem_left hasked.judged hspecifier
      exact ⟨dependency, hdependency, hjudged.path_eq⟩
  rw [hpaths] at hmem
  refine ⟨requested, executed, linking, loader, text, stream, statements, hran, hloader, hfetch,
    htokens, hstatements, Linking.nodup_table, hmem, fun link hlink => ?_, hlinks'.trans hlinks⟩
  rw [hlinks', hlinks] at hlink
  obtain ⟨specifier, hspecifier, hbound⟩ := List.mem_flatMap.mp hlink
  obtain ⟨binding, -, rfl⟩ := List.mem_map.mp hbound
  exact (hmem _).mpr ⟨specifier, hspecifier, rfl⟩

/-- The host of two modules that import each other; the first one names the second by a marker and by
two specifiers. -/
def mutualImports : Host :=
  ⟨[("a.js", "/// <amd-dependency path='./b.js' name='b' />\n" ++
      "import x from './d/../b.js'; import * as y from './b.js'"),
    ("b.js", "import {z} from './a.js'")], [], Host.exportOrigin, []⟩

/-- The session that has loaded the first of the two. -/
def mutualSession : Session :=
  (start Config.default mutualImports fun _ => false).performAll [.load "./a.js" none]

/-- The names that a call binds, with their sources. -/
def bound? : HostCall → Option (List (String × String))
  | .execute wrapper _ => some (wrapper.links.map fun link => (link.name, link.source))
  | _ => none

/-- Names of one specifier come together, and two specifiers can lead to one path. -/
theorem names_come_by_specifier :
    ∃ wrapper dependencies, mutualSession.log[3]? = some (.execute wrapper dependencies) ∧
      (wrapper.links.map fun link => (link.name, link.source)) =
        [("b", "b.js"), ("y", "b.js"), ("x", "b.js")] ∧
      (dependencies.map Prod.fst).Nodup ∧
      ∀ link ∈ wrapper.links, link.source ∈ dependencies.map Prod.fst := by
  have hcall : mutualSession.log[3]?.bind bound? =
      some [("b", "b.js"), ("y", "b.js"), ("x", "b.js")] := by
    decide +kernel
  obtain ⟨call, hentry, hbound⟩ := Option.bind_eq_some_iff.mp hcall
  cases call with
  | execute wrapper dependencies =>
    obtain ⟨requested, executed, linking, loader, text, stream, statements, -, -, -, -, -, hnodup, -,
      hsources, -⟩ := host_gets_every_binding Config.default mutualImports (fun _ => false)
        [.load "./a.js" none] 3 wrapper dependencies hentry
    exact ⟨wrapper, dependencies, hentry, Option.some.inj hbound, hnodup, hsources⟩
  | _ => exact absurd hbound (by simp [bound?])

end Session

end ScriptLink
